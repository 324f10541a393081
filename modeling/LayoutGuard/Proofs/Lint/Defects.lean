import LayoutGuard.Proofs.ByPosition
import LayoutGuard.Proofs.Lint.Survey

/-!
The findings about a registry on its own. They are exactly its defects: each entry with a
name that Odin refuses, each spelling that stands at several positions and each Odin name
that is bound to several spellings, in this order and otherwise in the order of the
registry. There are none exactly if all names are identifiers and nothing is repeated.
-/

namespace LayoutGuard

theorem byPosition_zipIdx {α : Type} (as : List α) :
    ByPosition (fun i p => as[i]? = some p.1 ∧ p.2 = i) as.zipIdx := by
  refine (byPosition_getElem? as.zipIdx).congr fun i p => ?_
  rw [List.getElem?_zipIdx, Nat.zero_add, Option.map_eq_some_iff]
  constructor
  · rintro ⟨a, ha, rfl⟩
    exact ⟨ha, rfl⟩
  · rintro ⟨ha, rfl⟩
    exact ⟨p.1, ha, rfl⟩

theorem byPosition_distinctBy {α : Type} [DecidableEq α] (as : List α) :
    ByPosition (FirstAt as) (Text.distinctBy id as) := by
  refine ((byPosition_getElem? as).distinctBy id).congr fun i a => ?_
  refine and_congr_right fun _ => ?_
  constructor
  · intro hfirst j hj hja
    exact hfirst j hj a hja rfl
  · rintro hfirst j hj b hb rfl
    exact hfirst j hj hb

/-- No element is repeated when every element is met for the first time. -/
theorem nodup_iff_no_later {α : Type} {as : List α} :
    as.Nodup ↔ ∀ i j a, FirstAt as i a → as[j]? = some a → ¬i < j := by
  rw [List.nodup_iff_getElem?_ne_getElem?]
  constructor
  · intro hne i j a hi hj hij
    have hlt : j < as.length := (List.getElem?_eq_some_iff.mp hj).1
    exact hne i j hij hlt (hi.1.trans hj.symm)
  · intro hlater i j hij hlt heq
    have hj : as[j]? = some as[j] := List.getElem?_eq_getElem hlt
    obtain ⟨k, hki, hk⟩ := exists_firstAt (heq.trans hj)
    exact hlater k j as[j] hk hj (by omega)

namespace Lint

variable {r : Registry} {i : Nat}

/-- The entry at a position has a name that Odin refuses, and the finding says so. -/
def RefusedAt (r : Registry) (i : Nat) (f : Finding) : Prop :=
  ∃ b, r.bindings[i]? = some b ∧ Odin.isIdentifier b.odinName = false ∧
    f = .invalidForeignName b.spelling b.odinName

/-- A position is the first of a spelling that occurs again. All positions of the spelling
are listed in order, and the Odin names at these positions in the same order. -/
structure RepeatedAt (r : Registry) (i : Nat) (spelling : String) (odinNames : List String)
    (positions : List Nat) : Prop where
  first : FirstAt r.spellings i spelling
  again : ∃ j, i < j ∧ r.spellings[j]? = some spelling
  positions_listed : ByPosition (fun j k => r.spellings[j]? = some spelling ∧ k = j) positions
  odinNames_listed : ByPosition
    (fun j name => ∃ b, r.bindings[j]? = some b ∧ b.spelling = spelling ∧ b.odinName = name)
    odinNames

/-- The Odin names of the entries, each with the spelling that it is bound to. -/
def pairings (r : Registry) : List (String × String) :=
  r.bindings.map fun b => (b.odinName, b.spelling)

/-- A position is the first of an Odin name that is bound to different spellings. These are
listed once each, in the order in which they are first bound to the name. -/
structure SharedAt (r : Registry) (i : Nat) (odinName : String) (spellings : List String) :
    Prop where
  first : FirstAt (r.bindings.map Binding.odinName) i odinName
  several : ∃ b ∈ r.bindings, ∃ c ∈ r.bindings,
    b.odinName = odinName ∧ c.odinName = odinName ∧ b.spelling ≠ c.spelling
  spellings_listed :
    ByPosition (fun j spelling => FirstAt (pairings r) j (odinName, spelling)) spellings

/-! Names that Odin refuses -/

/-- Each entry with a refused name is reported once, in registry order. -/
theorem byPosition_invalidNames (r : Registry) : ByPosition (RefusedAt r) (invalidNames r) := by
  refine (((byPosition_getElem? r.bindings).filter _).map _).congr fun i f => ?_
  constructor
  · rintro ⟨b, ⟨hb, hrefused⟩, rfl⟩
    exact ⟨b, hb, by simpa using hrefused, rfl⟩
  · rintro ⟨b, hb, hrefused, rfl⟩
    exact ⟨b, ⟨hb, by simpa using hrefused⟩, rfl⟩

theorem invalidNames_eq_nil_iff :
    invalidNames r = [] ↔ ∀ b ∈ r.bindings, Odin.isIdentifier b.odinName = true := by
  simp [invalidNames]

/-! Repeated spellings -/

theorem spellings_getElem?_eq_some_iff {j : Nat} {spelling : String} :
    r.spellings[j]? = some spelling ↔ ∃ b, r.bindings[j]? = some b ∧ b.spelling = spelling := by
  rw [Registry.spellings, List.getElem?_map, Option.map_eq_some_iff]

theorem byPosition_occurrences (r : Registry) (spelling : String) :
    ByPosition (fun j p => (r.bindings[j]? = some p.1 ∧ p.2 = j) ∧ p.1.spelling = spelling)
      (occurrences r spelling) := by
  refine ((byPosition_zipIdx r.bindings).filter _).congr fun j p => ?_
  rw [decide_eq_true_iff]

/-- A type stands at two positions or more when one follows its first. -/
theorem one_lt_length_occurrences {spelling : String} (hfirst : FirstAt r.spellings i spelling) :
    1 < (occurrences r spelling).length ↔ ∃ j, i < j ∧ r.spellings[j]? = some spelling := by
  rw [(byPosition_occurrences r spelling).one_lt_length_iff]
  constructor
  · rintro ⟨k, j, p, q, hkj, ⟨⟨hp, -⟩, hpsame⟩, ⟨hq, -⟩, hqsame⟩
    have hk : r.spellings[k]? = some spelling := spellings_getElem?_eq_some_iff.mpr ⟨_, hp, hpsame⟩
    have hle : ¬k < i := fun hlt => hfirst.2 k hlt hk
    exact ⟨j, by omega, spellings_getElem?_eq_some_iff.mpr ⟨_, hq, hqsame⟩⟩
  · rintro ⟨j, hij, hj⟩
    obtain ⟨b, hb, hbsame⟩ := spellings_getElem?_eq_some_iff.mp hfirst.1
    obtain ⟨c, hc, hcsame⟩ := spellings_getElem?_eq_some_iff.mp hj
    exact ⟨i, j, (b, i), (c, j), hij, ⟨⟨hb, rfl⟩, hbsame⟩, ⟨hc, rfl⟩, hcsame⟩

theorem repeatedAt_iff {spelling : String} {odinNames : List String} {positions : List Nat} :
    RepeatedAt r i spelling odinNames positions ↔ FirstAt r.spellings i spelling ∧
      1 < (occurrences r spelling).length ∧
      (occurrences r spelling).map (fun p => p.1.odinName) = odinNames ∧
      (occurrences r spelling).map Prod.snd = positions := by
  have hnames : ByPosition
      (fun j name => ∃ b, r.bindings[j]? = some b ∧ b.spelling = spelling ∧ b.odinName = name)
      ((occurrences r spelling).map fun p => p.1.odinName) := by
    refine ((byPosition_occurrences r spelling).map _).congr fun j name => ?_
    constructor
    · rintro ⟨p, ⟨⟨hp, -⟩, hsame⟩, rfl⟩
      exact ⟨p.1, hp, hsame, rfl⟩
    · rintro ⟨b, hb, hsame, rfl⟩
      exact ⟨(b, j), ⟨⟨hb, rfl⟩, hsame⟩, rfl⟩
  have hpositions : ByPosition (fun j k => r.spellings[j]? = some spelling ∧ k = j)
      ((occurrences r spelling).map Prod.snd) := by
    refine ((byPosition_occurrences r spelling).map _).congr fun j k => ?_
    rw [spellings_getElem?_eq_some_iff]
    constructor
    · rintro ⟨p, ⟨⟨hp, rfl⟩, hsame⟩, rfl⟩
      exact ⟨⟨p.1, hp, hsame⟩, rfl⟩
    · rintro ⟨⟨b, hb, hsame⟩, rfl⟩
      exact ⟨(b, k), ⟨⟨hb, rfl⟩, hsame⟩, rfl⟩
  constructor
  · intro h
    refine ⟨h.first, (one_lt_length_occurrences h.first).mpr h.again, ?_, ?_⟩
    · exact hnames.unique h.odinNames_listed
    · exact hpositions.unique h.positions_listed
  · rintro ⟨hfirst, hlength, rfl, rfl⟩
    exact ⟨hfirst, (one_lt_length_occurrences hfirst).mp hlength, hpositions, hnames⟩

/-- Each repeated type is reported once, where it stands first. -/
theorem byPosition_duplicateNatives (r : Registry) :
    ByPosition
      (fun i f => ∃ spelling odinNames positions,
        RepeatedAt r i spelling odinNames positions ∧
          f = .duplicateNative spelling odinNames positions)
      (duplicateNatives r) := by
  refine ((byPosition_distinctBy r.spellings).filterMap _).congr fun i f => ?_
  simp only [repeatedAt_iff, Option.ite_none_right_eq_some, Option.some.injEq]
  constructor
  · rintro ⟨spelling, hfirst, hlength, rfl⟩
    exact ⟨spelling, _, _, ⟨hfirst, hlength, rfl, rfl⟩, rfl⟩
  · rintro ⟨spelling, _, _, ⟨hfirst, hlength, rfl, rfl⟩, rfl⟩
    exact ⟨spelling, hfirst, hlength, rfl⟩

theorem duplicateNatives_eq_nil_iff : duplicateNatives r = [] ↔ r.spellings.Nodup := by
  rw [(byPosition_duplicateNatives r).eq_nil_iff, nodup_iff_no_later]
  constructor
  · intro hnone i j spelling hi hj hij
    refine hnone i _ ⟨spelling, _, _, repeatedAt_iff.mpr ⟨hi, ?_, rfl, rfl⟩, rfl⟩
    exact (one_lt_length_occurrences hi).mpr ⟨j, hij, hj⟩
  · rintro hlater i _ ⟨spelling, odinNames, positions, h, -⟩
    obtain ⟨j, hij, hj⟩ := h.again
    exact hlater i j spelling h.first hj hij

/-! Shared Odin names -/

theorem pairings_getElem?_eq_some_iff {j : Nat} {odinName spelling : String} :
    (pairings r)[j]? = some (odinName, spelling) ↔
      ∃ b, r.bindings[j]? = some b ∧ b.odinName = odinName ∧ b.spelling = spelling := by
  rw [pairings, List.getElem?_map, Option.map_eq_some_iff]
  simp only [Prod.mk.injEq]

theorem byPosition_boundTo (r : Registry) (odinName : String) :
    ByPosition (fun j spelling => FirstAt (pairings r) j (odinName, spelling))
      (boundTo r odinName) := by
  have hbound (j : Nat) (spelling : String) :
      (∃ b, (r.bindings[j]? = some b ∧ decide (b.odinName = odinName) = true) ∧
        b.spelling = spelling) ↔ (pairings r)[j]? = some (odinName, spelling) := by
    rw [pairings_getElem?_eq_some_iff]
    simp only [decide_eq_true_iff, and_assoc]
  refine ((((byPosition_getElem? r.bindings).filter _).map _).distinctBy id).congr
    fun j spelling => ?_
  simp only [hbound]
  refine and_congr_right fun _ => ?_
  constructor
  · intro hfirst k hk hsame
    exact hfirst k hk spelling hsame rfl
  · rintro hfirst k hk _ hsame rfl
    exact hfirst k hk hsame

/-- A name is shared when two entries bind it to different types. -/
theorem one_lt_length_boundTo {odinName : String} :
    1 < (boundTo r odinName).length ↔ ∃ b ∈ r.bindings, ∃ c ∈ r.bindings,
      b.odinName = odinName ∧ c.odinName = odinName ∧ b.spelling ≠ c.spelling := by
  rw [(byPosition_boundTo r odinName).one_lt_length_iff]
  constructor
  · rintro ⟨i, j, s, t, hij, hi, hj⟩
    obtain ⟨b, hb, hbname, rfl⟩ := pairings_getElem?_eq_some_iff.mp hi.1
    obtain ⟨c, hc, hcname, rfl⟩ := pairings_getElem?_eq_some_iff.mp hj.1
    refine ⟨b, List.mem_of_getElem? hb, c, List.mem_of_getElem? hc, hbname, hcname, ?_⟩
    intro hsame
    have heq : i = j := hi.eq (hsame ▸ hj)
    omega
  · rintro ⟨b, hb, c, hc, hbname, hcname, hne⟩
    have hfirst {d : Binding} (hd : d ∈ r.bindings) (hname : d.odinName = odinName) :
        ∃ k, FirstAt (pairings r) k (odinName, d.spelling) := by
      obtain ⟨k, hk⟩ := List.mem_iff_getElem?.mp hd
      obtain ⟨l, -, hl⟩ := exists_firstAt (pairings_getElem?_eq_some_iff.mpr ⟨d, hk, hname, rfl⟩)
      exact ⟨l, hl⟩
    obtain ⟨i, hi⟩ := hfirst hb hbname
    obtain ⟨j, hj⟩ := hfirst hc hcname
    have hij : i ≠ j := by
      rintro rfl
      exact hne (congrArg Prod.snd (Option.some.inj (hi.1.symm.trans hj.1)))
    by_cases hlt : i < j
    · exact ⟨i, j, _, _, hlt, hi, hj⟩
    · exact ⟨j, i, _, _, by omega, hj, hi⟩

theorem sharedAt_iff {odinName : String} {spellings : List String} :
    SharedAt r i odinName spellings ↔ FirstAt (r.bindings.map Binding.odinName) i odinName ∧
      1 < (boundTo r odinName).length ∧ boundTo r odinName = spellings := by
  have hlisted := byPosition_boundTo r odinName
  constructor
  · intro h
    refine ⟨h.first, one_lt_length_boundTo.mpr h.several, ?_⟩
    exact hlisted.unique h.spellings_listed
  · rintro ⟨hfirst, hlength, rfl⟩
    exact ⟨hfirst, one_lt_length_boundTo.mp hlength, hlisted⟩

/-- Each shared name is reported once, where it stands first. -/
theorem byPosition_duplicateForeigns (r : Registry) :
    ByPosition
      (fun i f => ∃ odinName spellings,
        SharedAt r i odinName spellings ∧ f = .duplicateForeign odinName spellings)
      (duplicateForeigns r) := by
  refine ((byPosition_distinctBy (r.bindings.map Binding.odinName)).filterMap _).congr
    fun i f => ?_
  simp only [sharedAt_iff, Option.ite_none_right_eq_some, Option.some.injEq]
  constructor
  · rintro ⟨odinName, hfirst, hlength, rfl⟩
    exact ⟨odinName, _, ⟨hfirst, hlength, rfl⟩, rfl⟩
  · rintro ⟨odinName, _, ⟨hfirst, hlength, rfl⟩, rfl⟩
    exact ⟨odinName, hfirst, hlength, rfl⟩

/-- Where no spelling is repeated, an Odin name that is repeated is bound to several. -/
theorem duplicateForeigns_eq_nil_iff (hspellings : r.spellings.Nodup) :
    duplicateForeigns r = [] ↔ (r.bindings.map Binding.odinName).Nodup := by
  rw [(byPosition_duplicateForeigns r).eq_nil_iff, nodup_iff_no_later]
  have hname {j : Nat} {odinName : String} :
      (r.bindings.map Binding.odinName)[j]? = some odinName ↔
        ∃ b, r.bindings[j]? = some b ∧ b.odinName = odinName := by
    rw [List.getElem?_map, Option.map_eq_some_iff]
  constructor
  · intro hnone i j odinName hi hj hij
    obtain ⟨b, hb, hbname⟩ := hname.mp hi.1
    obtain ⟨c, hc, hcname⟩ := hname.mp hj
    refine hnone i _ ⟨odinName, _, sharedAt_iff.mpr ⟨hi, ?_, rfl⟩, rfl⟩
    refine one_lt_length_boundTo.mpr
      ⟨b, List.mem_of_getElem? hb, c, List.mem_of_getElem? hc, hbname, hcname, ?_⟩
    intro hsame
    have hbs : r.spellings[i]? = some b.spelling := spellings_getElem?_eq_some_iff.mpr ⟨b, hb, rfl⟩
    have hcs : r.spellings[j]? = some b.spelling :=
      spellings_getElem?_eq_some_iff.mpr ⟨c, hc, hsame.symm⟩
    have hlt : j < r.spellings.length := (List.getElem?_eq_some_iff.mp hcs).1
    exact List.nodup_iff_getElem?_ne_getElem?.mp hspellings i j hij hlt (hbs.trans hcs.symm)
  · rintro hlater i _ ⟨odinName, spellings, h, -⟩
    obtain ⟨b, hb, c, hc, hbname, hcname, hne⟩ := h.several
    have hat {d : Binding} (hd : d ∈ r.bindings) (hdname : d.odinName = odinName) :
        r.bindings[i]? = some d := by
      obtain ⟨k, hk⟩ := List.mem_iff_getElem?.mp hd
      have hk' := hname.mpr ⟨d, hk, hdname⟩
      have hle : ¬k < i := fun hlt => h.first.2 k hlt hk'
      have hge : ¬i < k := hlater i k odinName h.first hk'
      obtain rfl : i = k := by omega
      exact hk
    have hsame : b = c := Option.some.inj ((hat hb hbname).symm.trans (hat hc hcname))
    exact hne (congrArg Binding.spelling hsame)

/-! All findings -/

/-- Nothing is reported exactly when all names are accepted and no type and no name is repeated.
-/
theorem registry_eq_nil_iff :
    registry r = [] ↔ (∀ b ∈ r.bindings, Odin.isIdentifier b.odinName = true) ∧
      r.spellings.Nodup ∧ (r.bindings.map Binding.odinName).Nodup := by
  rw [registry, List.append_eq_nil_iff, List.append_eq_nil_iff, invalidNames_eq_nil_iff,
    duplicateNatives_eq_nil_iff, and_assoc]
  refine and_congr_right fun _ => and_congr_right fun hspellings => ?_
  exact duplicateForeigns_eq_nil_iff hspellings

/-- The findings about a registry, which a single pass results in, are its defects and
nothing else. -/
theorem registry_reports_defects (r : Registry) :
    (survey r).findings r = registry r ∧
    (∃ refused repeated shared : List Finding,
      registry r = refused ++ repeated ++ shared ∧ ByPosition (RefusedAt r) refused ∧
      ByPosition
        (fun i f => ∃ spelling odinNames positions,
          RepeatedAt r i spelling odinNames positions ∧
            f = .duplicateNative spelling odinNames positions)
        repeated ∧
      ByPosition
        (fun i f => ∃ odinName spellings,
          SharedAt r i odinName spellings ∧ f = .duplicateForeign odinName spellings)
        shared) ∧
    (registry r = [] ↔ (∀ b ∈ r.bindings, Odin.isIdentifier b.odinName = true) ∧
      r.spellings.Nodup ∧ (r.bindings.map Binding.odinName).Nodup) := by
  refine ⟨survey_findings r, ?_, registry_eq_nil_iff⟩
  exact ⟨invalidNames r, duplicateNatives r, duplicateForeigns r, rfl,
    byPosition_invalidNames r, byPosition_duplicateNatives r, byPosition_duplicateForeigns r⟩

end Lint

end LayoutGuard

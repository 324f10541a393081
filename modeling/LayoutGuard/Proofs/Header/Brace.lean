import Mathlib.Order.Bounds.Basic
import LayoutGuard.Proofs.Header.Body
import LayoutGuard.Proofs.Text.Utf8

/-!
The brace that closes a block, in bytes. From an opening brace on the depth is the number of
braces opened less the number of those closed. It is positive up to the closing brace, so the
brace that is found is the first place where both numbers are equal, and none is found only
when there is no such place.
-/

namespace LayoutGuard.Header

open Text.Utf8

def openByte : UInt8 := 0x7b

def closeByte : UInt8 := 0x7d

/-- Why there is no closing brace: one too many is met, or the text is at its end. -/
inductive Unmatched
  | excess
  | unclosed
deriving DecidableEq, Repr

/-- The number of bytes up to and including the brace that closes `depth` open ones. -/
def bytesToClose (depth : Nat) : List UInt8 → Except Unmatched Nat
  | [] => .error .unclosed
  | b :: bs =>
    if b = openByte then (bytesToClose (depth + 1) bs).map (· + 1)
    else if b = closeByte then
      match depth with
      | 0 => .error .excess
      | 1 => .ok 1
      | d + 2 => (bytesToClose (d + 1) bs).map (· + 1)
    else (bytesToClose depth bs).map (· + 1)

/-- As many braces are open as `depth` and the bytes open without closing them. -/
def Deeper (depth : Nat) (bs : List UInt8) : Prop :=
  bs.count closeByte < depth + bs.count openByte

/-- The first `n` bytes close `depth` open braces, and no fewer bytes do. -/
structure Closes (depth : Nat) (bs : List UInt8) (n : Nat) : Prop where
  bound : n ≤ bs.length
  level : (bs.take n).count closeByte = depth + (bs.take n).count openByte
  deeper : ∀ m < n, Deeper depth (bs.take m)

/-- No number of bytes closes `depth` open braces. -/
def Unclosed (depth : Nat) (bs : List UInt8) : Prop :=
  ∀ m, Deeper depth (bs.take m)

variable {depth inner n : Nat} {b : UInt8} {bs : List UInt8}

/-! One more byte in front -/

/-- A byte in front changes the depth from which the other bytes are counted, and nothing else. -/
theorem deeper_cons_iff (h : inner + [b].count closeByte = depth + [b].count openByte) :
    Deeper depth (b :: bs) ↔ Deeper inner bs := by
  rw [List.count_singleton, List.count_singleton] at h
  rw [Deeper, Deeper, List.count_cons, List.count_cons]
  omega

theorem deeper_take_cons (h : inner + [b].count closeByte = depth + [b].count openByte)
    (hdepth : 0 < depth) {m : Nat} (hdeeper : ∀ k, m = k + 1 → Deeper inner (bs.take k)) :
    Deeper depth ((b :: bs).take m) := by
  cases m with
  | zero => simpa [Deeper] using hdepth
  | succ k => exact (deeper_cons_iff h).mpr (hdeeper k rfl)

/-- Behind one more byte the same brace is found, one position later. -/
theorem Closes.cons (h : inner + [b].count closeByte = depth + [b].count openByte)
    (hdepth : 0 < depth) (hcloses : Closes inner bs n) : Closes depth (b :: bs) (n + 1) := by
  refine ⟨Nat.succ_le_succ hcloses.bound, ?_, ?_⟩
  · have hlevel := hcloses.level
    rw [List.count_singleton, List.count_singleton] at h
    rw [List.take_succ_cons, List.count_cons, List.count_cons]
    omega
  · intro m hm
    exact deeper_take_cons h hdepth fun k hk => hcloses.deeper k (by omega)

theorem Unclosed.cons (h : inner + [b].count closeByte = depth + [b].count openByte)
    (hdepth : 0 < depth) (hunclosed : Unclosed inner bs) : Unclosed depth (b :: bs) :=
  fun _ => deeper_take_cons h hdepth fun k _ => hunclosed k

/-! What the search finds -/

/-- What a search finds that begins with an open brace; it meets no brace in excess. -/
inductive Found (depth : Nat) (bs : List UInt8) : Except Unmatched Nat → Prop
  | closed {n : Nat} (h : Closes depth bs n) : Found depth bs (.ok n)
  | unclosed (h : Unclosed depth bs) : Found depth bs (.error .unclosed)

theorem Found.cons (h : inner + [b].count closeByte = depth + [b].count openByte)
    (hdepth : 0 < depth) {r : Except Unmatched Nat} (hfound : Found inner bs r) :
    Found depth (b :: bs) (r.map (· + 1)) := by
  cases hfound with
  | closed hcloses => exact .closed (hcloses.cons h hdepth)
  | unclosed hunclosed => exact .unclosed (hunclosed.cons h hdepth)

/-- With a brace open, the search finds the brace that closes it or sees that there is none. -/
theorem found_bytesToClose (hdepth : 0 < depth) : Found depth bs (bytesToClose depth bs) := by
  induction bs generalizing depth with
  | nil => exact .unclosed fun m => by simpa [Deeper] using hdepth
  | cons b bs ih =>
    rw [bytesToClose.eq_def]
    dsimp only
    split
    · next hopen =>
      subst hopen
      exact (ih (Nat.succ_pos depth)).cons (by simp [openByte, closeByte]) hdepth
    · split
      · next hclose =>
        subst hclose
        match depth with
        | 1 =>
          refine .closed ⟨by simp, by simp [openByte, closeByte], ?_⟩
          intro m hm
          obtain rfl : m = 0 := by omega
          simp [Deeper]
        | d + 2 =>
          exact (ih (Nat.succ_pos d)).cons (by simp [openByte, closeByte]) hdepth
      · next hopen hclose =>
        exact (ih hdepth).cons (by simp [hopen, hclose]) hdepth

/-- The last of the bytes is the closing brace. -/
theorem Closes.closing (h : Closes (depth + 1) bs n) :
    ∃ m, n = m + 1 ∧ bs[m]? = some closeByte := by
  cases n with
  | zero =>
    have hlevel := h.level
    simp at hlevel
  | succ m =>
    have hlast : m < bs.length := h.bound
    have hbefore := h.deeper m (Nat.lt_succ_self m)
    have hlevel := h.level
    refine ⟨m, rfl, ?_⟩
    rw [List.getElem?_eq_getElem hlast, Option.some.injEq]
    by_contra hne
    rw [List.take_add_one, List.getElem?_eq_getElem hlast, Option.toList_some, List.count_append,
      List.count_append, List.count_singleton, if_neg (by simpa using hne)] at hlevel
    rw [Deeper] at hbefore
    omega

/-! Characters and bytes -/

theorem encodeChar_open : String.utf8EncodeChar '\x7b' = [openByte] :=
  encodeChar_ascii (by decide)

/-- No other character has the byte of a brace in its encoding. -/
theorem braceless_of_encodeChar {c : Char} (hc : Braceless c) :
    openByte ∉ String.utf8EncodeChar c ∧ closeByte ∉ String.utf8EncodeChar c :=
  ⟨fun h => hc.1 (ascii_mem_encodeChar (by decide) h),
    fun h => hc.2 (ascii_mem_encodeChar (by decide) h)⟩

/-- Bytes that are no braces only put the answer off. -/
theorem bytesToClose_append {u : List UInt8} (hopen : openByte ∉ u) (hclose : closeByte ∉ u)
    (depth : Nat) (bs : List UInt8) :
    bytesToClose depth (u ++ bs) = (bytesToClose depth bs).map (· + u.length) := by
  induction u with
  | nil => cases h : bytesToClose depth bs <;> simp [h, Except.map]
  | cons b u ih =>
    rw [List.mem_cons, not_or] at hopen hclose
    rw [List.cons_append, bytesToClose.eq_def]
    dsimp only
    rw [if_neg fun h => hopen.1 h.symm, if_neg fun h => hclose.1 h.symm, ih hopen.2 hclose.2]
    cases bytesToClose depth bs with
    | error e => rfl
    | ok n =>
      simp only [Except.map, List.length_cons, Except.ok.injEq]
      omega

theorem toOption_map (f : Nat → Nat) (r : Except Unmatched Nat) :
    (r.map f).toOption = r.toOption.map f := by
  cases r <;> rfl

/-- The search over characters and the one over bytes find the same brace. -/
theorem toOption_bytesToClose (depth : Nat) (cs : List Char) :
    (bytesToClose depth (encode cs)).toOption =
      (closeBlock depth cs).map fun r => (encode r.1).length := by
  induction cs generalizing depth with
  | nil => rfl
  | cons c cs ih =>
    have hbehind (d : Nat) :
        ((bytesToClose d (encode cs)).map (· + (String.utf8EncodeChar c).length)).toOption =
          ((closeBlock d cs).map fun r => (c :: r.1, r.2)).map fun r => (encode r.1).length := by
      rw [toOption_map, ih, Option.map_map, Option.map_map]
      congr 1
      funext r
      simp only [Function.comp_apply, encode_cons, List.length_append, Nat.add_comm]
    rw [encode_cons, closeBlock.eq_def]
    dsimp only
    by_cases hopen : c = '\x7b'
    · subst hopen
      exact hbehind (depth + 1)
    · by_cases hclose : c = '\x7d'
      · subst hclose
        rcases depth with _ | _ | d
        · rfl
        · rfl
        · exact hbehind (d + 1)
      · obtain ⟨hnoOpen, hnoClose⟩ := braceless_of_encodeChar ⟨hopen, hclose⟩
        rw [if_neg hopen, if_neg hclose, bytesToClose_append hnoOpen hnoClose]
        exact hbehind depth

/-- Reading a block splits the text. -/
theorem eq_append_of_closeBlock {depth : Nat} {cs block rest : List Char}
    (h : closeBlock depth cs = some (block, rest)) : cs = block ++ rest := by
  induction cs generalizing depth block with
  | nil => cases h
  | cons c cs ih =>
    have hbehind {d : Nat}
        (hd : ((closeBlock d cs).map fun r => (c :: r.1, r.2)) = some (block, rest)) :
        c :: cs = block ++ rest := by
      obtain ⟨⟨inner, _⟩, hinner, hr⟩ := Option.map_eq_some_iff.mp hd
      obtain ⟨rfl, rfl⟩ := Prod.mk.inj hr
      rw [ih hinner, List.cons_append]
    rw [closeBlock.eq_def] at h
    dsimp only at h
    split at h
    · exact hbehind h
    · split at h
      · rcases depth with _ | _ | d
        · cases h
        · obtain ⟨rfl, rfl⟩ := Prod.mk.inj (Option.some.inj h)
          rfl
        · exact hbehind h
      · exact hbehind h

/-! The brace at a position of a text -/

def segment (bs : List UInt8) (start stop : Nat) : List UInt8 :=
  (bs.drop start).take (stop - start)

def Balanced (bs : List UInt8) : Prop :=
  bs.count openByte = bs.count closeByte

/-- The block that is opened at `start` ends just before the position `k`. -/
structure MatchedAt (source : List Char) (start k : Nat) : Prop where
  least : IsLeast {j | start < j ∧ j ≤ (encode source).length ∧
    Balanced (segment (encode source) start j)} k
  closing : (encode source)[k - 1]? = some closeByte
  /-- A character ends there. -/
  boundary : ∃ before after, source = before ++ after ∧ (encode before).length = k
  deeper : ∀ j, start < j → j < k →
    (segment (encode source) start j).count closeByte <
      (segment (encode source) start j).count openByte

section Place

variable {before after : List Char}

theorem encode_split (before after : List Char) :
    encode (before ++ '\x7b' :: after) = encode before ++ openByte :: encode after := by
  rw [encode_append, encode_cons, encodeChar_open, List.singleton_append]

/-- What follows the brace up to a later position. -/
theorem segment_split (before after : List Char) (n : Nat) :
    segment (encode (before ++ '\x7b' :: after)) (encode before).length
      ((encode before).length + (n + 1)) = openByte :: (encode after).take n := by
  rw [encode_split, segment, List.drop_left, Nat.add_sub_cancel_left, List.take_succ_cons]

theorem deeper_open_iff : Deeper 1 bs ↔
    (openByte :: bs).count closeByte < (openByte :: bs).count openByte := by
  have hlevel : 1 + [openByte].count closeByte = 0 + [openByte].count openByte := by decide
  rw [← deeper_cons_iff hlevel, Deeper, Nat.zero_add]

/-- Up to a position inside the block, fewer braces are closed than opened. -/
theorem count_lt_of_deeper {m : Nat} (h : Deeper 1 ((encode after).take m)) :
    (segment (encode (before ++ '\x7b' :: after)) (encode before).length
        ((encode before).length + (m + 1))).count closeByte <
      (segment (encode (before ++ '\x7b' :: after)) (encode before).length
        ((encode before).length + (m + 1))).count openByte := by
  rw [segment_split]
  exact deeper_open_iff.mp h

theorem not_balanced_of_unclosed (h : Unclosed 1 (encode after)) {j : Nat}
    (hj : (encode before).length < j) :
    ¬Balanced (segment (encode (before ++ '\x7b' :: after)) (encode before).length j) := by
  obtain ⟨m, rfl⟩ := Nat.exists_eq_add_of_lt hj
  exact (count_lt_of_deeper (h m)).ne'

/-- The search over characters stops between two of them. -/
theorem boundary_of_matchingBrace? {cs : List Char} {k : Nat}
    (h : matchingBrace? (encode before).length cs = some k) :
    ∃ u v, before ++ cs = u ++ v ∧ (encode u).length = k := by
  obtain ⟨⟨block, rest⟩, hblock, rfl⟩ := Option.map_eq_some_iff.mp h
  refine ⟨before ++ block, rest, ?_, ?_⟩
  · rw [eq_append_of_closeBlock hblock, List.append_assoc]
  · rw [encode_append, List.length_append, length_encode block]

theorem matchedAt_of_closes (h : Closes 1 (encode after) n)
    (hboundary : ∃ u v, before ++ '\x7b' :: after = u ++ v ∧
      (encode u).length = (encode before).length + (n + 1)) :
    MatchedAt (before ++ '\x7b' :: after) (encode before).length
      ((encode before).length + (n + 1)) := by
  have hdeeper : ∀ j, (encode before).length < j → j < (encode before).length + (n + 1) →
      (segment (encode (before ++ '\x7b' :: after)) (encode before).length j).count closeByte <
        (segment (encode (before ++ '\x7b' :: after)) (encode before).length j).count
          openByte := by
    intro j hj hjn
    obtain ⟨m, rfl⟩ := Nat.exists_eq_add_of_lt hj
    exact count_lt_of_deeper (h.deeper m (by omega))
  refine ⟨⟨⟨by omega, ?_, ?_⟩, ?_⟩, ?_, hboundary, hdeeper⟩
  · have hbound := h.bound
    rw [encode_split, List.length_append, List.length_cons]
    omega
  · have hlevel := h.level
    rw [segment_split, Balanced, List.count_cons_self, List.count_cons_of_ne (by decide), hlevel,
      Nat.add_comm]
  · rintro j ⟨hj, -, hbalanced⟩
    by_contra hlt
    exact (hdeeper j hj (Nat.lt_of_not_le hlt)).ne' hbalanced
  · obtain ⟨m, rfl, hm⟩ := h.closing
    have hposition : (encode before).length + (m + 1 + 1) - 1 = (encode before).length + (m + 1) :=
      by omega
    rw [hposition, encode_split, List.getElem?_append_right (by omega), Nat.add_sub_cancel_left,
      List.getElem?_cons_succ, hm]

theorem bytesToClose_open (bs : List UInt8) :
    bytesToClose 0 (openByte :: bs) = (bytesToClose 1 bs).map (· + 1) := by
  rw [bytesToClose.eq_def]
  exact if_pos rfl

/-- Behind an opening brace the depth is never taken below zero. -/
theorem bytesToClose_open_ne_excess (bs : List UInt8) :
    bytesToClose 0 (openByte :: bs) ≠ .error .excess := by
  have hfound : Found 1 bs (bytesToClose 1 bs) := found_bytesToClose Nat.one_pos
  rw [bytesToClose_open]
  generalize bytesToClose 1 bs = r at hfound
  cases hfound <;> nofun

theorem matchingBrace?_eq (start : Nat) (cs : List Char) :
    matchingBrace? start cs = (bytesToClose 0 (encode cs)).toOption.map (start + ·) := by
  rw [toOption_bytesToClose, Option.map_map, matchingBrace?]
  congr 1
  funext r
  rw [Function.comp_apply, length_encode]

/-- Either the brace is closed where the search says, or it is never closed. -/
theorem matched_or_unclosed (before after : List Char) :
    (∃ k, matchingBrace? (encode before).length ('\x7b' :: after) = some k ∧
      MatchedAt (before ++ '\x7b' :: after) (encode before).length k) ∨
    matchingBrace? (encode before).length ('\x7b' :: after) = none ∧
      ∀ j, (encode before).length < j →
        ¬Balanced (segment (encode (before ++ '\x7b' :: after)) (encode before).length j) := by
  have hfound : Found 1 (encode after) (bytesToClose 1 (encode after)) :=
    found_bytesToClose Nat.one_pos
  have hsearch := matchingBrace?_eq (encode before).length ('\x7b' :: after)
  rw [encode_cons, encodeChar_open, List.singleton_append, bytesToClose_open] at hsearch
  generalize bytesToClose 1 (encode after) = r at hfound hsearch
  cases hfound with
  | closed hcloses =>
    exact Or.inl ⟨_, hsearch, matchedAt_of_closes hcloses (boundary_of_matchingBrace? hsearch)⟩
  | unclosed hunclosed =>
    exact Or.inr ⟨hsearch, fun _ hj => not_balanced_of_unclosed hunclosed hj⟩

/-- The search gives just the end of the matching block. -/
theorem matchingBrace?_eq_some_iff {k : Nat} :
    matchingBrace? (encode before).length ('\x7b' :: after) = some k ↔
      MatchedAt (before ++ '\x7b' :: after) (encode before).length k := by
  rcases matched_or_unclosed before after with ⟨k', hfound, hmatched⟩ | ⟨hnone, hnever⟩
  · rw [hfound, Option.some.injEq]
    constructor
    · rintro rfl
      exact hmatched
    · exact fun hk => hmatched.least.unique hk.least
  · rw [hnone]
    refine iff_of_false nofun ?_
    intro hk
    exact hnever k hk.least.1.1 hk.least.1.2.2

/-- The search succeeds as soon as any position balances the braces. -/
theorem exists_matchingBrace?_iff :
    (∃ k, matchingBrace? (encode before).length ('\x7b' :: after) = some k) ↔
      ∃ j, (encode before).length < j ∧ j ≤ (encode (before ++ '\x7b' :: after)).length ∧
        Balanced (segment (encode (before ++ '\x7b' :: after)) (encode before).length j) := by
  constructor
  · rintro ⟨k, hk⟩
    exact ⟨k, (matchingBrace?_eq_some_iff.mp hk).least.1⟩
  · rintro ⟨j, hj, -, hbalanced⟩
    rcases matched_or_unclosed before after with ⟨k, hk, -⟩ | ⟨-, hnever⟩
    · exact ⟨k, hk⟩
    · exact absurd hbalanced (hnever j hj)

end Place

/-- Reading from an opening brace on gives the byte position behind the brace that closes it:
the first position up to which as many braces are closed as opened. The byte before it is that
brace, a character ends there, and everywhere between more braces are open. There is no answer
exactly if the brace is never closed; the search reads the bytes with a depth that is never
taken below zero. -/
theorem matchingBrace?_finds_match {source : List Char} {start : Nat}
    (h : (encode source)[start]? = some openByte) :
    ∃ before cs, source = before ++ cs ∧ (encode before).length = start ∧
      (∀ k, matchingBrace? start cs = some k ↔ MatchedAt source start k) ∧
      ((∃ k, matchingBrace? start cs = some k) ↔ ∃ j, start < j ∧
        j ≤ (encode source).length ∧ Balanced (segment (encode source) start j)) ∧
      (matchingBrace? start cs = none ↔ ∀ j, start < j → j ≤ (encode source).length →
        ¬Balanced (segment (encode source) start j)) ∧
      matchingBrace? start cs =
        (bytesToClose 0 ((encode source).drop start)).toOption.map (start + ·) ∧
      bytesToClose 0 ((encode source).drop start) ≠ .error .excess := by
  obtain ⟨before, after, rfl, rfl⟩ := exists_split_of_ascii (d := '\x7b') (by decide) h
  have hdrop : (encode (before ++ '\x7b' :: after)).drop (encode before).length =
      openByte :: encode after := by
    rw [encode_split, List.drop_left]
  refine ⟨before, '\x7b' :: after, rfl, rfl, fun _ => matchingBrace?_eq_some_iff,
    exists_matchingBrace?_iff, ?_, ?_, ?_⟩
  · rw [← Option.not_isSome_iff_eq_none, Option.isSome_iff_exists, exists_matchingBrace?_iff]
    simp only [not_exists, not_and]
  · rw [matchingBrace?_eq, hdrop, encode_cons, encodeChar_open, List.singleton_append]
  · rw [hdrop]
    exact bytesToClose_open_ne_excess (encode after)

/-! A brace behind characters of several bytes -/

def accentedText : List Char :=
  "/* é */ struct nk_a \x7bint é; struct \x7bint b;\x7d c;\x7d; \x7d".toList

/-- Two letters of two bytes each stand before the brace that is found. -/
theorem accentedText_matched : (encode accentedText)[21]? = some openByte ∧
    MatchedAt accentedText 21 49 := by
  have hopen : (encode accentedText)[21]? = some openByte := by decide +kernel
  obtain ⟨before, cs, hsource, hlength, hsome, -, -, hsearch, -⟩ :=
    matchingBrace?_finds_match hopen
  refine ⟨hopen, (hsome 49).mp ?_⟩
  rw [hsearch]
  decide +kernel

end LayoutGuard.Header

import Mathlib.Data.List.Induction
import LayoutGuard.Proofs.Files.Course

/-!
Emissions one after another onto one path, in which sizes may be missing and the system may
make trouble. After each of them the path leads to the document of the last one that
succeeded, in a file with the mode that it had at first, and all else is as it was.
-/

namespace LayoutGuard.Emission

open FileSystem Replacement

variable {fs : FileSystem} {p : Path}

/-- An emission during which the system may make trouble. -/
def emitAmid (trouble : Option Trouble) (fs : FileSystem) (package : PackageName) (r : Registry)
    (source : SizeSource) (p : Path) : FileSystem × Except Fault Emission :=
  match AssertionFile.render package r source with
  | .error f => (fs, .error f)
  | .ok document =>
    let contents := fileBytes document
    let c := course trouble fs p contents
    (c.final fs, (c.outcome.mapError (.writeFailed p)).map fun _ =>
      ⟨p, package.text, r.size, contents.length, fs.holds p contents⟩)

theorem emitAmid_none (package : PackageName) (r : Registry) (source : SizeSource) :
    emitAmid none fs package r source p = emit fs package r source p := rfl

/-- What an emission is asked for, and the trouble that it meets. -/
structure Call where
  package : PackageName
  registry : Registry
  source : SizeSource
  trouble : Option Trouble

namespace Call

def document (c : Call) : Except Fault String :=
  AssertionFile.render c.package c.registry c.source

def run (c : Call) (fs : FileSystem) (p : Path) : FileSystem × Except Fault Emission :=
  emitAmid c.trouble fs c.package c.registry c.source p

def report (c : Call) (fs : FileSystem) (p : Path) (document : String) : Emission :=
  ⟨p, c.package.text, c.registry.size, (fileBytes document).length, fs.holds p (fileBytes document)⟩

/-- A call fails and changes nothing, or it puts its document where the path leads to. -/
theorem run_spec (c : Call) (fs : FileSystem) (p : Path) :
    (∃ f, c.run fs p = (fs, .error f)) ∨
    ∃ document loc, c.document = .ok document ∧ Replaceable fs p loc ∧
      c.run fs p = (fs.put loc (.file (finalMode fs p) (fileBytes document)),
        .ok (c.report fs p document)) := by
  rw [run, emitAmid, document]
  cases AssertionFile.render c.package c.registry c.source with
  | error f => exact Or.inl ⟨f, rfl⟩
  | ok document =>
    rcases course_spec c.trouble fs p (fileBytes document) with
      ⟨e, houtcome, hfinal⟩ | ⟨loc, hplace, houtcome, hfinal⟩
    · left
      exact ⟨.writeFailed p e, by simp only [houtcome, hfinal]; rfl⟩
    · right
      exact ⟨document, loc, rfl, hplace, by simp only [houtcome, hfinal]; rfl⟩

/-- A call succeeds when its assertions can be rendered, there is a place for the file, and
the system makes no step of the replacement fail. -/
theorem isOk_run_iff (c : Call) (fs : FileSystem) (p : Path) :
    (∃ e, (c.run fs p).2 = .ok e) ↔
      (∃ document, c.document = .ok document) ∧ (∃ loc, Replaceable fs p loc) ∧
        ¬Strikes c.trouble fs p := by
  rw [run, emitAmid, document]
  cases AssertionFile.render c.package c.registry c.source with
  | error f => simp
  | ok document =>
    have houtcome : (course c.trouble fs p (fileBytes document)).outcome = .ok () ↔
        (∃ loc, Replaceable fs p loc) ∧ ¬Strikes c.trouble fs p := outcome_eq_ok_iff
    rw [← houtcome]
    cases hcourse : (course c.trouble fs p (fileBytes document)).outcome with
    | error e => simp [hcourse, Except.mapError, Except.map]
    | ok _ => simp [hcourse, Except.mapError, Except.map]

end Call

/-! Runs of calls -/

/-- The tree after some calls, and the document of the last one that succeeded. -/
structure Progress where
  files : FileSystem
  written : Option String

def Progress.next (p : Path) (s : Progress) (c : Call) : Progress :=
  match c.run s.files p, c.document with
  | (after, .ok _), .ok document => ⟨after, some document⟩
  | (after, _), _ => ⟨after, s.written⟩

def runCalls (fs : FileSystem) (p : Path) (calls : List Call) : Progress :=
  calls.foldl (Progress.next p) ⟨fs, none⟩

theorem runCalls_append (calls : List Call) (c : Call) :
    runCalls fs p (calls ++ [c]) = (runCalls fs p calls).next p c := by
  rw [runCalls, List.foldl_append]
  rfl

/-- What calls leave behind: the tree that was there, or that tree with a document as the
file that the path leads to. -/
inductive Standing (fs : FileSystem) (p : Path) : Progress → Prop
  | untouched : Standing fs p ⟨fs, none⟩
  | written {document : String} {loc : Location} {after : FileSystem}
      (hplace : Replaceable fs p loc)
      (h : Updated fs loc (.file (finalMode fs p) (fileBytes document)) after) :
      Standing fs p ⟨after, some document⟩

theorem finalMode_updated {loc : Location} {contents : List UInt8} {after : FileSystem}
    (hplace : Replaceable fs p loc)
    (h : Updated fs loc (.file (finalMode fs p) contents) after) :
    finalMode after p = finalMode fs p := by
  have hlocate : after.locate p = .ok loc :=
    (h.locate_iff hplace.destination.free).mpr hplace.destination.locate
  have hmode : after.fileMode? p = some (finalMode fs p) :=
    fileMode?_eq_some_iff.mpr ⟨contents, status_eq_ok_iff.mpr ⟨loc, hlocate, h.entry?_self⟩⟩
  rw [finalMode, hmode]
  rfl

/-- A call that fails leaves what stands, and one that succeeds writes to the same place with the
same mode. -/
theorem Standing.next {s : Progress} (h : Standing fs p s) (c : Call) :
    Standing fs p (s.next p c) := by
  rcases c.run_spec s.files p with ⟨f, hrun⟩ | ⟨document, loc, hdocument, hplace, hrun⟩
  · rw [Progress.next, hrun]
    exact h
  · rw [Progress.next, hrun, hdocument]
    cases h with
    | untouched => exact .written hplace (updated_put fs hplace.destination.free.ne_root _)
    | @written old place after hbefore hupdated =>
      have hfree := hbefore.destination.free
      have hsame : Replaceable fs p loc := (replaceable_iff hupdated hfree).mp hplace
      obtain rfl : place = loc :=
        Except.ok.inj (hbefore.destination.locate.symm.trans hsame.destination.locate)
      refine .written hsame (hupdated.trans ?_)
      rw [← finalMode_updated hbefore hupdated]
      exact updated_put after hfree.ne_root _

theorem standing_runCalls (fs : FileSystem) (p : Path) (calls : List Call) :
    Standing fs p (runCalls fs p calls) := by
  induction calls using List.reverseRecOn with
  | nil => exact .untouched
  | append_singleton calls c ih =>
    rw [runCalls_append]
    exact ih.next c

/-! What a run leaves behind -/

/-- The tree `after` is `fs` with one finished file where the path leads to. It has the mode
of the file that was there, or else that of a new file. -/
structure Replaced (fs : FileSystem) (p : Path) (contents : List UInt8) (after : FileSystem) :
    Prop where
  held : after.contentsOf p = .ok contents
  place : ∃ loc, fs.locate p = .ok loc ∧
    Updated fs loc (.file ((fs.fileMode? p).getD (fs.newMode 0o644)) contents) after
  others : ∀ q, ¬fs.SamePlace p q → ∀ e, after.status q = .ok e ↔ fs.status q = .ok e

/-- What is written at the place of the path is seen under that path and under none that leads
elsewhere. -/
theorem replaced_of_updated {loc : Location} {contents : List UInt8} {after : FileSystem}
    (hplace : Replaceable fs p loc)
    (h : Updated fs loc (.file (finalMode fs p) contents) after) :
    Replaced fs p contents after where
  held := h.contentsOf_self hplace.destination.free hplace.destination.locate
  place := ⟨loc, hplace.destination.locate, h⟩
  others _ hq _ := h.status_iff hplace.destination.free fun hlocate =>
    hq ⟨loc, hplace.destination.locate, hlocate⟩

theorem holds_iff {contents : List UInt8} :
    fs.holds p contents = true ↔ fs.contentsOf p = .ok contents := by
  rw [FileSystem.holds]
  cases fs.contentsOf p with
  | error e => simp
  | ok existing => simp

/-- After any calls on one path, of which some may fail, the tree is the one before them if
none succeeded; else the path leads to the whole document of the last that did, and all else
is as it was before the calls, so no staging file is left. A further call that fails changes
nothing, and one that succeeds reports the length of its document and whether the path led to
the same bytes until then. It succeeds exactly when its document can be rendered, the path
leads to a place for a file, and the system makes no trouble at a step that it takes. -/
theorem emissions_onto_one_path (fs : FileSystem) (p : Path) (calls : List Call) :
    (match (runCalls fs p calls).written with
      | none => (runCalls fs p calls).files = fs
      | some document => Replaced fs p (fileBytes document) (runCalls fs p calls).files) ∧
    ∀ c : Call,
      (match c.run (runCalls fs p calls).files p with
        | (after, .error _) => after = (runCalls fs p calls).files
        | (_, .ok e) => ∃ document, c.document = .ok document ∧
            e.bytes = (fileBytes document).length ∧
            (e.unchanged = true ↔
              (runCalls fs p calls).files.contentsOf p = .ok (fileBytes document))) ∧
      ((∃ e, (c.run (runCalls fs p calls).files p).2 = .ok e) ↔
        (∃ document, c.document = .ok document) ∧
          (∃ loc, Replaceable (runCalls fs p calls).files p loc) ∧
          ¬Strikes c.trouble (runCalls fs p calls).files p) := by
  constructor
  · have hstanding := standing_runCalls fs p calls
    generalize runCalls fs p calls = s at hstanding ⊢
    cases hstanding with
    | untouched => rfl
    | written hplace h => exact replaced_of_updated hplace h
  · intro c
    refine ⟨?_, c.isOk_run_iff _ p⟩
    rcases c.run_spec (runCalls fs p calls).files p with
      ⟨f, hrun⟩ | ⟨document, _, hdocument, _, hrun⟩
    · rw [hrun]
    · rw [hrun]
      exact ⟨document, hdocument, rfl, holds_iff⟩

/-! A file that is written twice, with a failure of either kind in between -/

def vectorFile : Path :=
  ⟨"vec.odin"⟩

def guardedTree : FileSystem :=
  ⟨[(["vec.odin"], .file 0o600 [])], [], 0o022⟩

/-- A call for one type, whose size may be unknown. -/
def vectorCall (size : Option UInt64) (trouble : Option Trouble) : Call :=
  ⟨⟨"nk", by decide⟩, ⟨[⟨⟨.struct, "nk_vec2"⟩, "Vec2"⟩]⟩, fun _ => size, trouble⟩

def denied : Trouble :=
  ⟨.permit, .system .permissionDenied, 0⟩

def interruptedCalls : List Call :=
  [vectorCall (some 8) none, vectorCall none none, vectorCall (some 12) denied,
    vectorCall (some 16) none]

def interruptedTree : FileSystem :=
  (runCalls guardedTree vectorFile interruptedCalls).files

/-- The last document is there, in a file with the mode from before. A call without a size and
one that may not set the mode still fail, and the last call finds its own bytes. -/
theorem interruptedCalls_leave_last_document :
    (∃ document, (vectorCall (some 16) none).document = .ok document ∧
      Replaced guardedTree vectorFile (fileBytes document) interruptedTree) ∧
    (¬∃ e, ((vectorCall none none).run interruptedTree vectorFile).2 = .ok e) ∧
    (¬∃ e, ((vectorCall (some 12) denied).run interruptedTree vectorFile).2 = .ok e) ∧
    ∃ after e, (vectorCall (some 16) none).run interruptedTree vectorFile = (after, .ok e) ∧
      e.unchanged = true := by
  obtain ⟨hleft, hnext⟩ := emissions_onto_one_path guardedTree vectorFile interruptedCalls
  obtain ⟨after, e, hrun⟩ : ∃ after e,
      (vectorCall (some 16) none).run interruptedTree vectorFile = (after, .ok e) := by
    have hok : ((vectorCall (some 16) none).run interruptedTree vectorFile).2.isOk = true := by
      decide +kernel
    rcases hrun : (vectorCall (some 16) none).run interruptedTree vectorFile with ⟨after, _ | e⟩
    · rw [hrun] at hok
      cases hok
    · exact ⟨after, e, rfl⟩
  obtain ⟨hlast, -⟩ := hnext (vectorCall (some 16) none)
  rw [← interruptedTree, hrun] at hlast
  obtain ⟨document, hdocument, -, hunchanged⟩ := hlast
  have hreplaced : Replaced guardedTree vectorFile (fileBytes document) interruptedTree := by
    have hwritten : (runCalls guardedTree vectorFile interruptedCalls).written =
        (vectorCall (some 16) none).document.toOption := by decide +kernel
    rw [hwritten, hdocument] at hleft
    exact hleft
  refine ⟨⟨document, hdocument, hreplaced⟩, ?_, ?_, after, e, hrun,
    hunchanged.mpr hreplaced.held⟩
  · intro hok
    obtain ⟨⟨_, hdocument⟩, -⟩ := (hnext (vectorCall none none)).2.mp hok
    cases hdocument
  · intro hok
    obtain ⟨-, -, hcalm⟩ := (hnext (vectorCall (some 12) denied)).2.mp hok
    exact hcalm ⟨denied, rfl, fun _ => by decide +kernel⟩

end LayoutGuard.Emission

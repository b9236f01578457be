import SyntaxGraph.Proofs.Documents
import SyntaxGraph.Settings

/-!
# Settings that are saved and loaded

A settings file is a table of three numbers, so what is saved is what a later load reads. Saving
changes the file at its own path, and only if it succeeds; loading changes nothing. A row of requests
therefore leaves at every path what was saved there last.

One thing stands between saving and loading. Ceilings of zero are refused when a file is loaded and
not when it is saved, so settings with such a ceiling are saved to a file that cannot be loaded.
-/

namespace SyntaxGraph

namespace Settings

variable {settings : Settings} {files : Files} {path other : String} {force : Bool}

/-! ## One file -/

theorem toList_text (settings : Settings) : settings.text.toList =
    '[' :: ("limits".toList ++ ']' :: '\n' :: settings.limits.named.flatMap Toml.numberLine) := by
  simp [text, Limits.named, Toml.numberLine]

/-- Settings that can be written are read back from their text. -/
theorem ofText?_text (writable : settings.isWritable = true) :
    ofText? settings.text = some settings := by
  have bounded : ∀ entry ∈ settings.limits.named, entry.2 < Nat.pow 2 63 := fun entry member =>
    of_decide_eq_true (List.all_eq_true.mp writable entry member)
  have read := Toml.read?_numbers "limits" settings.limits.named (by decide)
    (by simp [Limits.named]; decide) bounded (by simp [Limits.named])
  rw [← toList_text, String.ofList_toList] at read
  rw [ofText?, read]
  simp [Toml.Entries.get?, limitsOf?, ceilings?, ceilingOr?, ceiling?, Limits.named]

/-- A file that holds settings is loaded, unless one of the ceilings is zero. -/
theorem load_text (writable : settings.isWritable = true)
    (stands : files.get? path = some settings.text) :
    load files path = match settings.limits.zero? with
      | none => .ok (some settings)
      | some name => .error (.zero name) := by
  have read := ofText?_text writable
  cases zero : settings.limits.zero? with
  | none => simp [load, stands, read, zero]
  | some name => simp [load, stands, read, zero]

/-- What a write answers and leaves behind, by what it finds. -/
theorem write_eq : settings.write path force files =
    if settings.isWritable = true ∧ (force = true ∨ files.get? path = none) then
      (.ok (), files.insert path settings.text)
    else (.error (if force = true ∨ files.get? path = none then .tooLarge else .present), files) := by
  rw [write, OrderedMap.contains]
  cases files.get? path <;> cases force <;> cases settings.isWritable <;> rfl

/-! ## Requests -/

/-- A use of the settings files. -/
inductive Request where
  | load (path : String)
  | write (path : String) (settings : Settings) (force : Bool)

/-- What a request is answered with. -/
inductive Reply where
  | loaded (settings : Except LoadError (Option Settings))
  | written (outcome : Except WriteError Unit)

namespace Request

/-- Answer a request, and give the files as they are afterwards. -/
def run : Request → Files → Reply × Files
  | .load path, files => (.loaded (Settings.load files path), files)
  | .write path settings force, files =>
    (.written (settings.write path force files).1, (settings.write path force files).2)

/-- Answer requests one after the other; the answers stand with their requests. -/
def runAll : List Request → Files → List (Request × Reply) × Files
  | [], files => ([], files)
  | request :: requests, files =>
    let (reply, between) := request.run files
    let (exchanges, after) := runAll requests between
    ((request, reply) :: exchanges, after)

/-- What a request has saved at a path, by its answer. -/
def saves? (path : String) : Request × Reply → Option Settings
  | (.write target settings _, .written (.ok ())) => if target = path then some settings else none
  | _ => none

/-- The settings that were saved last at a path. -/
def lastSaved? (path : String) (exchanges : List (Request × Reply)) : Option Settings :=
  exchanges.reverse.findSome? (saves? path)

/-- A request changes the file at a path to what it saves there, and saves only what can be read
back. -/
theorem run_saves (request : Request) (files : Files) (path : String) :
    (request.run files).2.get? path =
        ((saves? path (request, (request.run files).1)).map Settings.text).or (files.get? path) ∧
      ∀ settings, saves? path (request, (request.run files).1) = some settings →
        settings.isWritable = true := by
  cases request with
  | load target => exact ⟨rfl, fun _ absurd => nomatch absurd⟩
  | write target settings force =>
      rw [run, write_eq]
      split
      · rename_i granted
        rw [OrderedMap.get?_insert]
        by_cases same : target = path
        · simp [saves?, same, granted.1]
        · simp [saves?, same, Ne.symm same]
      · exact ⟨rfl, fun _ absurd => nomatch absurd⟩

theorem runAll_saves (requests : List Request) (files : Files) (path : String) :
    (runAll requests files).2.get? path =
        ((lastSaved? path (runAll requests files).1).map Settings.text).or (files.get? path) ∧
      ∀ settings, lastSaved? path (runAll requests files).1 = some settings →
        settings.isWritable = true := by
  induction requests generalizing files with
  | nil => exact ⟨rfl, fun _ absurd => nomatch absurd⟩
  | cons request requests ih =>
      obtain ⟨here, readable⟩ := run_saves request files path
      obtain ⟨later, readable'⟩ := ih (request.run files).2
      have parted : lastSaved? path (runAll (request :: requests) files).1 =
          (lastSaved? path (runAll requests (request.run files).2).1).or
            (saves? path (request, (request.run files).1)) := by
        rw [runAll, lastSaved?, List.reverse_cons, List.findSome?_append, List.findSome?_singleton]
        rfl
      rw [parted]
      refine ⟨?_, fun settings saved => ?_⟩
      · rw [Option.map_or, Option.or_assoc, ← here]
        exact later
      · rcases Option.or_eq_some_iff.mp saved with last | ⟨-, first⟩
        · exact readable' settings last
        · exact readable settings first

/-- After any requests, a path is loaded as what was saved there last. -/
theorem load_runAll (requests : List Request) (files : Files)
    (saved : lastSaved? path (runAll requests files).1 = some settings) :
    Settings.load (runAll requests files).2 path = match settings.limits.zero? with
      | none => .ok (some settings)
      | some name => .error (.zero name) := by
  obtain ⟨after, readable⟩ := runAll_saves requests files path
  rw [saved] at after
  exact load_text (readable settings saved) after

/-- Where nothing is saved, nothing changes. -/
theorem get?_runAll_of_none (requests : List Request) (files : Files)
    (unsaved : lastSaved? path (runAll requests files).1 = none) :
    (runAll requests files).2.get? path = files.get? path := by
  obtain ⟨after, -⟩ := runAll_saves requests files path
  rw [after, unsaved]
  rfl

theorem runAll_load (paths : List String) (files : Files) :
    (runAll (paths.map .load) files).2 = files := by
  induction paths with
  | nil => rfl
  | cons path paths ih => exact ih

end Request

/-! ## Saving and loading -/

/-- Settings are written exactly if every ceiling fits the format and the path is free or may be
replaced. Then no other file has changed, and a load at the path gives the settings back unless one
of the ceilings is zero, which a load refuses. A write that fails leaves all files as they were, and
so does every load. -/
theorem write_load (settings : Settings) (path : String) (force : Bool) (files : Files) :
    let outcome := (settings.write path force files).1
    let after := (settings.write path force files).2
    (outcome = .ok () ↔
        settings.isWritable = true ∧ (force = true ∨ files.get? path = none)) ∧
      (outcome = .ok () →
        (load after path = match settings.limits.zero? with
          | none => .ok (some settings)
          | some name => .error (.zero name)) ∧
        ∀ other, other ≠ path → after.get? other = files.get? other) ∧
      (outcome ≠ .ok () → after = files) ∧
      ∀ paths : List String, (Request.runAll (paths.map .load) files).2 = files := by
  intro outcome after
  have answer : (outcome, after) = settings.write path force files := rfl
  rw [write_eq] at answer
  have loads := fun paths => Request.runAll_load paths files
  by_cases granted : settings.isWritable = true ∧ (force = true ∨ files.get? path = none)
  · rw [if_pos granted] at answer
    obtain ⟨succeeded, left⟩ := Prod.mk.inj answer
    rw [succeeded, left]
    refine ⟨⟨fun _ => granted, fun _ => rfl⟩, fun _ => ⟨load_text granted.1 (by simp), ?_⟩,
      fun failed => absurd rfl failed, loads⟩
    intro other apart
    rw [OrderedMap.get?_insert, if_neg (by simpa using apart)]
  · rw [if_neg granted] at answer
    obtain ⟨failed, left⟩ := Prod.mk.inj answer
    rw [failed, left]
    refine ⟨⟨fun succeeded => ?_, fun wanted => absurd wanted granted⟩, fun succeeded => ?_,
      fun _ => rfl, loads⟩
    all_goals cases succeeded

/-- Settings under which every build fails. -/
def shut : Settings := ⟨{ Limits.standard with maxFanout := 0 }⟩

/-- A ceiling of zero is written and refused by the load. -/
theorem write_load_zero :
    (shut.write "settings.toml" false ∅).1 = .ok () ∧
      load (shut.write "settings.toml" false ∅).2 "settings.toml" = .error (.zero "max_fanout") ∧
      load (shut.write "settings.toml" false ∅).2 "settings.toml" ≠ .ok (some shut) := by
  have written : shut.write "settings.toml" false ∅ =
      (.ok (), (∅ : Files).insert "settings.toml" shut.text) := rfl
  have loaded : load ((∅ : Files).insert "settings.toml" shut.text) "settings.toml" =
      .error (.zero "max_fanout") := load_text (rfl : shut.isWritable = true) (by simp)
  rw [written]
  refine ⟨rfl, loaded, ?_⟩
  rw [loaded]
  exact fun absurd => nomatch absurd

end Settings

end SyntaxGraph

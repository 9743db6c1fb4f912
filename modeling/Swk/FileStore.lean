import Swk.Codec
import Swk.KeyValue
import Swk.StateExcept

/-!
# The file store

`FileStore` keeps a file for each key. A write goes to a temporary file that is synced and then
renamed; where a file cannot be replaced, the old one is removed first. Each system call may fail,
and the process may end in any.

**Theorem (`fileStore_atomic`).** A write that fails leaves the old value or the new one, or none
where files are not replaced, and nothing else changes. Until the key is written again, what is read
is what was written last.

Temporary files lie between the others, and their names are keys too. The store is a map only on
other keys. `put` changes files by steps; `put_cases` says in which three states it can end.
-/

namespace Swk.FileStore

open KeyValue Function

abbrev Files := String → Option Bytes

inductive FileError
  | invalidInput (text : String)
  | notFound
  | alreadyExists
  | other
deriving DecidableEq

/-- `FileStore::file_path`, the name of a key in the directory. -/
def filePath (key : Bytes) : Except FileError String :=
  match String.fromUTF8? ⟨key.toArray⟩ with
  | none => .error (.invalidInput "store key is not valid UTF-8")
  | some name =>
    if name = "" then .error (.invalidInput "store key is empty")
    else if 255 < key.length then
      .error (.invalidInput "store key exceeds maximum file name length (255 bytes)")
    else if name = "." || name = ".." ||
        ['/', '\\', '\x00', ':', '*', '?', '<', '>', '|'].any name.toList.contains then
      .error (.invalidInput "store key contains invalid file name characters")
    else .ok name

/-- The names that `tempfile` makes up. -/
def isTemp (name : String) : Bool := name.toList.take 4 = ['.', 't', 'm', 'p']

/-- The system calls that an operation makes. -/
inductive Call
  | read
  | newIn
  | writeAll
  | syncAll
  | persist
  | removeFile
  | persistAgain
  | syncDir

/-- What an operation meets: the name of its temporary file, the calls that fail or in which the
process ends, what was written to the temporary file by then, and whether that file is dropped. -/
structure Event where
  tmp : { name : String // isTemp name = true }
  fails : Call → Bool
  written : Bytes
  dropped : Bool

abbrev FileM := EStateM FileError Files

section Steps

variable (replaces : Bool) (e : Event)

def call (c : Call) : FileM Unit := if e.fails c then throw .other else pure ()

def set (name : String) (content : Option Bytes) : FileM Unit := modify (update · name content)

/-- `fs::read`. -/
def read (path : String) : FileM Bytes := do
  call e .read
  match (← get) path with
  | some bytes => pure bytes
  | none => throw .notFound

/-- `fs::remove_file`, where a file that is not there is fine. -/
def removeFile (path : String) : FileM Unit :=
  tryCatch (do
    call e .removeFile
    if ((← get) path).isNone then throw .notFound
    set path none) fun error => if error = .notFound then pure () else throw error

/-- `NamedTempFile::persist`: rename the file, if need be over another one. -/
def persist (c : Call) (path : String) : FileM Unit := do
  call e c
  let files ← get
  if !replaces && (files path).isSome then throw .alreadyExists
  set e.tmp none
  set path (files e.tmp)

/-- Rename the file; if another one is in the way and stays, remove that and try again. -/
def persistOver (path : String) : FileM Unit :=
  tryCatch (persist replaces e .persist path) fun error =>
    if error = .alreadyExists then do
      removeFile e path
      persist replaces e .persistAgain path
    else throw error

/-- The temporary file of `put`, up to its renaming. -/
def writeTemp (value : Bytes) : FileM Unit := do
  call e .newIn
  set e.tmp (some e.written)
  call e .writeAll
  set e.tmp (some value)
  call e .syncAll

def put (path : String) (value : Bytes) : FileM Unit := do
  tryCatch (do
    writeTemp e value
    persistOver replaces e path) fun error => do
    -- an error drops the `NamedTempFile`
    if e.dropped then set e.tmp none
    throw error
  call e .syncDir

end Steps

def fileStore (replaces : Bool) : Store Bytes Bytes FileError Files Event := fun e op files =>
  match filePath op.key with
  | .error error => (.error error, files)
  | .ok path =>
    let run : FileM (Option Bytes) :=
      match op with
      | .get _ => tryCatch (do return some (← read e path)) fun error =>
          if error = .notFound then pure none else throw error
      | .write _ (some value) => do
          put replaces e path value
          return none
      | .write _ none => do
          removeFile e path
          return none
    match run files with
    | .ok answer files => (.ok answer, files)
    | .error error files => (.error error, files)

/-- The map that the files stand for. -/
def visible (files : Files) (key : Bytes) : Option Bytes :=
  match filePath key with
  | .ok name => if isTemp name then none else files name
  | .error _ => none

/-- A key that is not the name of a temporary file. -/
def Plain (key : Bytes) : Prop := ∀ name, filePath key = .ok name → isTemp name = false

variable {key : Bytes} {name tmp : String} {files : Files} {replaces : Bool} {x : Option Bytes}

theorem filePath_ok (h : filePath key = .ok name) : key = name.toByteArray.data.toList := by
  unfold filePath at h
  cases htext : String.fromUTF8? ⟨key.toArray⟩ with
  | none => simp [htext] at h
  | some text =>
    simp only [htext] at h
    split_ifs at h
    cases h
    simp only [String.fromUTF8?, Option.dite_none_right_eq_some, Option.some.injEq] at htext
    obtain ⟨hvalid, rfl⟩ := htext
    rfl

theorem visible_temp (h : isTemp tmp = true) : visible (update files tmp x) = visible files := by
  funext key
  cases hkey : filePath key with
  | error e => simp [visible, hkey]
  | ok name =>
    by_cases hname : name = tmp
    · simp [visible, hkey, hname, h]
    · simp [visible, hkey, hname]

theorem visible_update (hkey : filePath key = .ok name) (h : isTemp name = false) :
    visible (update files name x) = update (visible files) key x := by
  funext key'
  by_cases hkey' : key' = key
  · simp [hkey', visible, hkey, h]
  · cases hname : filePath key' with
    | error e => simp [visible, hname, hkey']
    | ok name' =>
      have hne : name' ≠ name := by
        intro heq
        rw [filePath_ok hname, filePath_ok hkey, heq] at hkey'
        exact hkey' rfl
      simp [visible, hname, hkey', hne]

section Steps

variable {e : Event} {value : Bytes} {path : String}

theorem run_call (c : Call) :
    call e c files = if e.fails c then .error .other files else .ok () files := by
  unfold call
  split <;> rfl

theorem run_set (content : Option Bytes) :
    set name content files = .ok () (update files name content) := rfl

theorem run_removeFile : removeFile e path files =
    if e.fails .removeFile then .error .other files else .ok () (update files path none) := by
  simp only [removeFile, run_tryCatch, run_bind, run_call, run_get, run_ite]
  cases e.fails .removeFile with
  | true => rfl
  | false =>
    cases hfile : files path with
    | none =>
      have hsame : update files path none = files := by rw [← hfile, update_eq_self]
      simp [hfile, run_throw, run_pure, hsame]
    | some => simp [hfile, run_set]

theorem run_persist (c : Call) : persist replaces e c path files =
    if e.fails c then .error .other files
    else if !replaces && (files path).isSome then .error .alreadyExists files
    else .ok () (update (update files e.tmp none) path (files e.tmp)) := by
  simp only [persist, run_bind, run_call, run_get, run_ite, run_throw, run_set]
  cases e.fails c with
  | true => rfl
  | false => rfl

theorem writeTemp_cases (e : Event) (value : Bytes) (files : Files) : ∃ x,
    writeTemp e value files = .error .other (update files e.tmp x) ∨
    writeTemp e value files = .ok () (update files e.tmp (some value)) := by
  simp only [writeTemp, run_bind, run_call, run_set]
  cases e.fails .newIn with
  | true => exact ⟨files e.tmp, by simp⟩
  | false =>
    cases e.fails .writeAll with
    | true => exact ⟨some e.written, by simp⟩
    | false => cases e.fails .syncAll <;> exact ⟨some value, by simp⟩

theorem persistOver_cases (replaces : Bool) (files : Files) (hne : path ≠ e.tmp) :
    (∃ error, persistOver replaces e path files = .error error files) ∨
    (∃ error, persistOver replaces e path files = .error error (update files path none) ∧
      replaces = false) ∨
    persistOver replaces e path files =
      .ok () (update (update files e.tmp none) path (files e.tmp)) := by
  simp only [persistOver, run_tryCatch, run_persist]
  cases e.fails .persist with
  | true => exact .inl ⟨.other, rfl⟩
  | false =>
    cases hold : !replaces && (files path).isSome with
    | false => simp
    | true =>
      have hreplaces : replaces = false := by simp_all
      -- the old file stays, or goes before the new one comes
      simp only [run_bind, run_removeFile, run_persist, run_ite]
      cases e.fails .removeFile with
      | true => exact .inl ⟨.other, rfl⟩
      | false =>
        cases e.fails .persistAgain with
        | true => exact .inr (.inl ⟨.other, rfl, hreplaces⟩)
        | false =>
          right; right
          simp [update_of_ne hne.symm, update_comm hne]

/-- What a write leaves: the temporary file is renamed, or the old file is gone, or neither. -/
theorem put_cases (replaces : Bool) (e : Event) (value : Bytes) (files : Files)
    (hkey : filePath key = .ok path) (hplain : isTemp path = false) :
    ∃ files', put replaces e path value files = .ok () files' ∧
        visible files' = update (visible files) key (some value) ∨
      ∃ error, put replaces e path value files = .error error files' ∧
        (visible files' = visible files ∨
          visible files' = update (visible files) key (some value) ∨
          replaces = false ∧ visible files' = update (visible files) key none) := by
  have hne : path ≠ e.tmp := by
    intro heq
    rw [heq, e.tmp.2] at hplain
    cases hplain
  have htmp {files : Files} {x : Option Bytes} : visible (update files e.tmp x) = visible files :=
    visible_temp e.tmp.2
  have hupdate {files : Files} {x : Option Bytes} :
      visible (update files path x) = update (visible files) key x :=
    visible_update hkey hplain
  simp only [put, run_bind, run_tryCatch, run_call, run_ite]
  obtain ⟨x, h | h⟩ := writeTemp_cases e value files
  · cases e.dropped <;> simp [h, run_set, run_throw, htmp]
  · obtain ⟨error, hp⟩ | ⟨error, hp, rfl⟩ | hp :=
      persistOver_cases replaces (update files e.tmp (some value)) hne
    · cases e.dropped <;> simp [h, hp, run_set, run_throw, htmp]
    · cases e.dropped <;> simp [h, hp, run_set, run_throw, htmp, hupdate]
    · cases e.fails .syncDir <;> simp [h, hp, htmp, hupdate]

end Steps

theorem fileStore_simulates : Simulates (fileStore replaces) (!replaces) Plain visible := by
  intro event op files htakes
  unfold fileStore
  cases hkey : filePath op.key with
  | error e => exact .failed _ _
  | ok path =>
    have hplain := htakes path hkey
    cases op with
    | get k =>
      have hget : visible files k = files path := by
        simp [visible, show filePath k = _ from hkey, hplain]
      have hgot : Step (!replaces) (visible files) (.get k) (.ok (files path) : Except FileError _)
          (visible files) := hget ▸ .got k
      simp only [read, run_tryCatch, run_bind, run_call, run_get, run_pure, run_ite, run_throw]
      cases event.fails .read with
      | true => exact .failed _ _
      | false => cases hfile : files path <;> simpa [hfile, run_throw, run_pure] using hgot
    | write k value =>
      cases value with
      | none =>
        simp only [run_bind, run_removeFile]
        cases event.fails .removeFile with
        | true => exact .failed _ _
        | false => simpa [run_pure, visible_update hkey hplain] using .wrote k none
      | some value =>
        simp only [run_bind]
        obtain ⟨files', ⟨hput, hseen⟩ | ⟨error, hput, hseen⟩⟩ :=
          put_cases replaces event value files hkey hplain
        · simpa [hput, hseen, run_pure] using .wrote k (some value)
        · simp only [hput]
          rcases hseen with hseen | hseen | ⟨rfl, hseen⟩
          · simpa [hseen] using .failed _ _
          · simpa [hseen] using .wroteAnyway k (some value) _
          · simpa [hseen] using .lost rfl k (some value) _

theorem fileStore_atomic (replaces : Bool) :
    (∀ event k x files, Plain k →
      let r := fileStore replaces event (.write k x) files
      ((∃ y, r.1 = .ok y) → visible r.2 k = x) ∧
      (visible r.2 k = x ∨ visible r.2 k = visible files k ∨
        replaces = false ∧ visible r.2 k = none) ∧
      ∀ k', k' ≠ k → visible r.2 k' = visible files k') ∧
    ∀ ops k event event' x y z files, Plain k → (∀ op ∈ ops, Plain op.2.key) →
      (∀ op ∈ ops, op.2.key = k → op.2 = .get k) →
      (fileStore replaces event (.write k x) files).1 = .ok z →
      (fileStore replaces event' (.get k)
        (run (fileStore replaces) ops (fileStore replaces event (.write k x) files).2)).1 = .ok y →
      y = x := by
  refine ⟨?_, fun ops k _ _ x y z files hk hops hother => ?_⟩
  · intro event k x files hk
    simpa using (fileStore_simulates event (.write k x) files hk).write_atomic
  · exact fileStore_simulates.get_write hops hother hk

end Swk.FileStore

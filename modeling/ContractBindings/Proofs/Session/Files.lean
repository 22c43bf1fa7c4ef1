import ContractBindings.Proofs.Files.Changes
import ContractBindings.Proofs.Session.Runs

/-!
# Stages on the disk

What the successful runs of the stages on files are, in terms of the disk.
-/

namespace ContractBindings

open Session

variable {α : Type} {s t : State}

theorem runs_ofFiles_ok {o : Except Files.Failure α} {a : α} :
    Runs (ofFiles o) s (.ok a) t ↔ o = .ok a ∧ t = s := by
  rw [ofFiles, runs_ofExcept, eq_comm, except_mapError_eq_ok]

theorem runs_onDisk_ok {work : Files.Disk → Except Files.Failure Files.Disk} :
    Runs (onDisk work) s (.ok ()) t ↔ ∃ disk, work s.disk = .ok disk ∧ t = { s with disk } := by
  unfold onDisk
  rw [runs_get_bind, runs_bind_ok]
  constructor
  · rintro ⟨disk, u, hw, hm⟩
    obtain ⟨hd, rfl⟩ := runs_ofFiles_ok.mp hw
    exact ⟨disk, hd, (runs_modify.mp hm).2⟩
  · rintro ⟨disk, hd, rfl⟩
    exact ⟨disk, s, runs_ofFiles_ok.mpr ⟨hd, rfl⟩, runs_modify.mpr ⟨rfl, rfl⟩⟩

theorem runs_writeText_ok {path text : String} :
    Runs (writeText path text) s (.ok ()) t ↔
      ∃ disk, s.disk.write path (Text.Utf8.encode text) = .ok disk ∧ t = { s with disk } :=
  runs_onDisk_ok

theorem runs_ensureDirectories {p : Files.Path} : Runs (ensureDirectories p) s (.ok ()) t ↔
    ∃ disk, s.disk.ensureDirectories p = (disk, .ok ()) ∧ t = { s with disk } := by
  unfold Session.ensureDirectories
  rw [runs_get_bind, runs_modify_bind]
  show Runs (ofFiles (s.disk.ensureDirectories p).2) { s with disk := (s.disk.ensureDirectories p).1 }
    (.ok ()) t ↔ _
  rw [runs_ofFiles_ok]
  constructor
  · rintro ⟨ho, rfl⟩
    exact ⟨_, Prod.ext rfl ho, rfl⟩
  · rintro ⟨disk, hd, rfl⟩
    rw [hd]
    exact ⟨rfl, rfl⟩

theorem runs_ensureDirectories_ok {p : Files.Path} (h : Runs (ensureDirectories p) s (.ok ()) t) :
    ∃ disk, s.disk.Grows disk ∧ t = { s with disk } := by
  obtain ⟨disk, hd, ht⟩ := runs_ensureDirectories.mp h
  have hgrows := Files.Disk.grows_ensureDirectories s.disk p
  rw [hd] at hgrows
  exact ⟨disk, hgrows, ht⟩

def textOf (disk : Files.Disk) (path : String) : Except Error (List Char) :=
  match disk.read path with
  | .error e => .error (.file e)
  | .ok bytes =>
    match Text.Utf8.decode bytes with
    | .error fault => .error (.badUtf8 fault)
    | .ok cs => .ok (Text.unifyLineEnds cs)

theorem runs_readText {path : String} {r : Except Error (List Char)} :
    Runs (readText path) s r t ↔ r = textOf s.disk path ∧ t = s := by
  unfold readText textOf
  rw [runs_get_bind]
  cases s.disk.read path with
  | error e => exact runs_throw_bind
  | ok bytes =>
    rw [runs_bind_of_ok (runs_ofFiles_ok.mpr ⟨rfl, rfl⟩)]
    dsimp only
    cases Text.Utf8.decode bytes with
    | error fault => exact runs_throw
    | ok cs => exact runs_pure

theorem textOf_eq_ok {disk : Files.Disk} {path : String} {cs : List Char} :
    textOf disk path = .ok cs ↔ ∃ bytes decoded, disk.read path = .ok bytes ∧
      Text.Utf8.decode bytes = .ok decoded ∧ cs = Text.unifyLineEnds decoded := by
  unfold textOf
  cases disk.read path with
  | error e => simp
  | ok bytes => cases hd : Text.Utf8.decode bytes <;> simp [hd, eq_comm]

theorem runs_readText_ok {path : String} {cs : List Char} :
    Runs (readText path) s (.ok cs) t ↔ t = s ∧ ∃ bytes decoded, s.disk.read path = .ok bytes ∧
      Text.Utf8.decode bytes = .ok decoded ∧ cs = Text.unifyLineEnds decoded := by
  rw [runs_readText, eq_comm, textOf_eq_ok, and_comm]

variable {σ : Type} [JsonString σ] [DecidableEq σ]

def IsJsonFile (bytes : List UInt8) (v : Json σ) : Prop :=
  ∃ decoded, Text.Utf8.decode bytes = .ok decoded ∧ Json.read (Text.unifyLineEnds decoded) = .ok v

theorem IsJsonFile.unique {bytes : List UInt8} {v v' : Json σ} (h : IsJsonFile bytes v)
    (h' : IsJsonFile bytes v') : v' = v := by
  obtain ⟨cs, hcs, hv⟩ := h
  obtain ⟨cs', hcs', hv'⟩ := h'
  cases hcs.symm.trans hcs'
  exact Except.ok.inj (hv'.symm.trans hv)

theorem runs_readJson_ok {path : String} {v : Json σ} :
    Runs (readJson path) s (.ok v) t ↔
      t = s ∧ ∃ bytes, s.disk.read path = .ok bytes ∧ IsJsonFile bytes v := by
  unfold readJson
  rw [runs_bind_ok]
  constructor
  · rintro ⟨cs, u, hread, h⟩
    obtain ⟨rfl, bytes, decoded, hr, hd, rfl⟩ := runs_readText_ok.mp hread
    obtain ⟨hv, rfl⟩ := runs_ofExcept.mp h
    exact ⟨rfl, bytes, hr, decoded, hd, except_mapError_eq_ok.mp hv.symm⟩
  · rintro ⟨rfl, bytes, hr, decoded, hd, hv⟩
    refine ⟨_, t, runs_readText_ok.mpr ⟨rfl, bytes, decoded, hr, hd, rfl⟩, ?_⟩
    exact runs_ofExcept.mpr ⟨(except_mapError_eq_ok.mpr hv).symm, rfl⟩

end ContractBindings

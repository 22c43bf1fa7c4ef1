import ContractBindings.Proofs.Files.Footprint
import ContractBindings.Proofs.Session.Files
import ContractBindings.Proofs.Session.Keeps

/-!
# What a stage may change

A stage that writes one file, or makes directories, changes the disk there at
most, whether it succeeds or not. Stages in turn change no more than they do.
-/

namespace ContractBindings

open Session Files

variable {α : Type} {s t : State}

theorem disk_onDisk {work : Disk → Except Failure Disk} {r : Except Error Unit}
    (h : Runs (onDisk work) s r t) : t.disk = s.disk ∨ work s.disk = .ok t.disk := by
  cases r with
  | ok _ =>
    obtain ⟨disk, hw, rfl⟩ := runs_onDisk_ok.mp h
    exact .inr hw
  | error e =>
    unfold onDisk at h
    rw [runs_get_bind] at h
    rcases runs_bind.mp h with ⟨e', h, -⟩ | ⟨disk, u, -, h⟩
    · obtain ⟨-, rfl⟩ := runs_ofExcept.mp h
      exact .inl rfl
    · cases (runs_modify.mp h).1

theorem disk_ensureDirectories {p : Path} {r : Except Error Unit}
    (h : Runs (ensureDirectories p) s r t) : t.disk = (s.disk.ensureDirectories p).1 := by
  unfold ensureDirectories at h
  rw [runs_get_bind, runs_modify_bind] at h
  rw [(runs_ofExcept.mp h).2]

/-- A stage that starts in the directory `here` changes some places at most, and makes directories at
others. -/
def Confines (here : Place) (places ways : Place → Prop) (work : Session α) : Prop :=
  ∀ (s t : State) (r : Except Error α), s.disk.here = here → Runs work s r t →
    Disk.Confined places ways s.disk t.disk

section
variable {β : Type} {here : Place} {places ways : Place → Prop}

theorem confines_of_keeps {work : Session α} (h : Keeps State.disk work) :
    Confines here places ways work := by
  intro s t r _ hr
  rw [h s t r hr]
  exact .refl _

theorem confines_bind {x : Session α} {f : α → Session β} (hx : Confines here places ways x)
    (hf : ∀ a, Confines here places ways (f a)) : Confines here places ways (x >>= f) := by
  intro s t r hs h
  rcases runs_bind.mp h with ⟨e, h, -⟩ | ⟨a, u, h, h'⟩
  · exact hx _ _ _ hs h
  · have hfirst := hx _ _ _ hs h
    exact hfirst.trans (hf a _ _ _ (hfirst.here.trans hs) h')

theorem confines_writeText {path : String} (hp : places (Disk.placeOf here path)) (text : String) :
    Confines here places ways (writeText path text) := by
  rintro s t r rfl h
  rcases disk_onDisk h with he | hw
  · rw [he]
    exact .refl _
  · exact Disk.confined_write hw hp

theorem confines_ensureDirectories {p : Path} (hp : p.IsNormal) (hw : ∀ q, p.OnWay here q → ways q) :
    Confines here places ways (ensureDirectories p) := by
  rintro s t r rfl h
  rw [disk_ensureDirectories h]
  exact (Disk.confined_ensureDirectories hp s.disk).mono (fun _ => id) hw

end

end ContractBindings

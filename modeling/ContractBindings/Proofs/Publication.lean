import ContractBindings.Publication
import ContractBindings.Proofs.Binding.Table
import ContractBindings.Proofs.Session.Confines

/-!
# What a publication leaves

A publication that succeeds leaves both modules on the disk, and every other
file as it was. The client module is not the hooks module, since it lies one
directory above it.
-/

namespace ContractBindings.Publication

open Session Files

variable {s t : State} {directory : Path} {stem : String}

def clientPath (directory : Path) (stem : String) : Path := directory.join (stem ++ ".js")

def hooksPath (directory : Path) (stem : String) : Path :=
  (directory.join hooksDirectory).join (stem ++ ".js")

def label (stem : String) (sourceName : Option String) : String :=
  (sourceName.filter (· != "")).getD (stem ++ ".sol")

theorem isComponent_hooksDirectory : Path.IsComponent hooksDirectory ∧ hooksDirectory ≠ ".." := by
  refine ⟨⟨?_, ?_, ?_⟩, ?_⟩ <;> decide

theorem placeOf_clientPath (hd : directory.IsNormal)
    (hs : Path.IsComponent (stem ++ ".js") ∧ stem ++ ".js" ≠ "..") (here : Place) :
    Disk.placeOf here (toString (clientPath directory stem)) =
      Disk.placeOf here (toString directory) ++ [stem ++ ".js"] :=
  Path.placeOf_join hd hs.1 hs.2

theorem placeOf_hooksPath (hd : directory.IsNormal)
    (hs : Path.IsComponent (stem ++ ".js") ∧ stem ++ ".js" ≠ "..") (here : Place) :
    Disk.placeOf here (toString (hooksPath directory stem)) =
      Disk.placeOf here (toString directory) ++ [hooksDirectory, stem ++ ".js"] := by
  obtain ⟨hc, hne⟩ := isComponent_hooksDirectory
  apply (Path.placeOf_join (hd.join hc) hs.1 hs.2).trans
  rw [Path.placeOf_join hd hc hne, List.append_assoc]
  rfl

theorem clientPath_ne_hooksPath (hd : directory.IsNormal)
    (hs : Path.IsComponent (stem ++ ".js") ∧ stem ++ ".js" ≠ "..") (here : Place) :
    Disk.placeOf here (toString (clientPath directory stem)) ≠
      Disk.placeOf here (toString (hooksPath directory stem)) := by
  rw [placeOf_clientPath hd hs, placeOf_hooksPath hd hs]
  intro h
  have hlen := congrArg List.length (List.append_cancel_left h)
  cases hlen

/-- A publication makes the directory of the hooks module and writes the one module after the other. -/
theorem runs_write_iff {as : Artifacts} {sourceName : Option String} {contexts : Hooks.Contexts}
    {paths : Path × Path} :
    Runs (write as directory stem sourceName contexts) s (.ok paths) t ↔
      paths = (clientPath directory stem, hooksPath directory stem) ∧ ∃ text d₁ d₂ d₃,
        s.disk.ensureDirectories (hooksPath directory stem).parent = (d₁, .ok ()) ∧
        Client.render as (Binding.ofArtifacts as) (label stem sourceName) = .ok text ∧
        d₁.write (toString (clientPath directory stem)) (Text.Utf8.encode text) = .ok d₂ ∧
        d₂.write (toString (hooksPath directory stem)) (Text.Utf8.encode
          (Hooks.render (Binding.ofArtifacts as) (label stem sourceName) ("../" ++ stem ++ ".js")
            contexts)) = .ok d₃ ∧
        t = { s with disk := d₃ } := by
  unfold write
  dsimp only
  constructor
  · intro h
    obtain ⟨_, u, hdirs, h⟩ := runs_bind_ok.mp h
    obtain ⟨d₁, hd₁, rfl⟩ := runs_ensureDirectories.mp hdirs
    obtain ⟨text, v, hrender, h⟩ := runs_bind_ok.mp h
    obtain ⟨htext, rfl⟩ := runs_ofExcept.mp hrender
    obtain ⟨_, w, hclient, h⟩ := runs_bind_ok.mp h
    obtain ⟨d₂, hd₂, rfl⟩ := runs_writeText_ok.mp hclient
    obtain ⟨_, x, hhooks, h⟩ := runs_bind_ok.mp h
    obtain ⟨d₃, hd₃, rfl⟩ := runs_writeText_ok.mp hhooks
    obtain ⟨hp, rfl⟩ := runs_pure.mp h
    exact ⟨Except.ok.inj hp, text, d₁, d₂, d₃, hd₁, htext.symm, hd₂, hd₃, rfl⟩
  · rintro ⟨rfl, text, d₁, d₂, d₃, hd₁, htext, hd₂, hd₃, rfl⟩
    refine runs_bind_ok.mpr ⟨_, _, runs_ensureDirectories.mpr ⟨d₁, hd₁, rfl⟩, ?_⟩
    refine runs_bind_ok.mpr ⟨text, _, runs_ofExcept.mpr ⟨htext.symm, rfl⟩, ?_⟩
    refine runs_bind_ok.mpr ⟨_, _, runs_writeText_ok.mpr ⟨d₂, hd₂, rfl⟩, ?_⟩
    refine runs_bind_ok.mpr ⟨_, _, runs_writeText_ok.mpr ⟨d₃, hd₃, rfl⟩, ?_⟩
    exact runs_pure.mpr ⟨rfl, rfl⟩

structure Published (as : Artifacts) (directory : Path) (stem : String) (sourceName : Option String)
    (contexts : Hooks.Contexts) (before after : Disk) : Prop where
  here : after.here = before.here
  client : after.read (toString (clientPath directory stem)) = .ok (Text.Utf8.encode
    (generatedNote (label stem sourceName) ++ "\n" ++ "const contracts = " ++
      (Json.obj (as.deployable.map Client.tableEntry)).pretty ++ ";" ++ "\n" ++
      Client.afterTable (Binding.ofArtifacts as)))
  hooks : after.read (toString (hooksPath directory stem)) = .ok (Text.Utf8.encode
    (Hooks.render (Binding.ofArtifacts as) (label stem sourceName) ("../" ++ stem ++ ".js") contexts))
  others : ∀ path bytes, before.read path = .ok bytes →
    Disk.placeOf before.here path ≠ Disk.placeOf before.here (toString (clientPath directory stem)) →
    Disk.placeOf before.here path ≠ Disk.placeOf before.here (toString (hooksPath directory stem)) →
      after.read path = .ok bytes

theorem runs_write_ok {as : Artifacts} {sourceName : Option String} {contexts : Hooks.Contexts}
    {paths : Path × Path} (hd : directory.IsNormal)
    (hs : Path.IsComponent (stem ++ ".js") ∧ stem ++ ".js" ≠ "..") (hn : as.keys.Nodup)
    (h : Runs (write as directory stem sourceName contexts) s (.ok paths) t) :
    paths = (clientPath directory stem, hooksPath directory stem) ∧ ∃ disk, t = { s with disk } ∧
      Published as directory stem sourceName contexts s.disk disk := by
  obtain ⟨rfl, text, d₁, d₂, d₃, hdirs, htext, hw₁, hw₂, rfl⟩ := runs_write_iff.mp h
  rw [Client.render_ofArtifacts hn] at htext
  cases htext
  have hg := Disk.grows_ensureDirectories s.disk (hooksPath directory stem).parent
  rw [hdirs] at hg
  have hhere₂ : d₂.here = d₁.here := (Disk.extends_write hw₁).here
  have hhere₃ : d₃.here = d₂.here := (Disk.extends_write hw₂).here
  refine ⟨rfl, d₃, rfl, ?_, ?_, ?_, ?_⟩
  · rw [hhere₃, hhere₂, hg.here]
  · exact Disk.read_write_of_ne hw₂ (clientPath_ne_hooksPath hd hs _) (Disk.read_write hw₁)
  · exact Disk.read_write hw₂
  · intro path bytes hr hne₁ hne₂
    rw [← hg.here] at hne₁ hne₂
    refine Disk.read_write_of_ne hw₂ ?_ (Disk.read_write_of_ne hw₁ hne₁ (hg.read hr))
    rw [hhere₂]
    exact hne₂

/-! ## What a publication may change -/

theorem parent_hooksPath (hs : Path.IsComponent (stem ++ ".js")) :
    (hooksPath directory stem).parent = directory.join hooksDirectory := by
  rw [hooksPath, Path.join_component hs, Path.parent]
  simp only [List.dropLast_concat]

theorem confines_write {here : Place} (hd : directory.IsNormal)
    (hs : Path.IsComponent (stem ++ ".js") ∧ stem ++ ".js" ≠ "..") (as : Artifacts)
    (sourceName : Option String) (contexts : Hooks.Contexts) :
    Confines here (fun p => p = Disk.placeOf here (toString (clientPath directory stem)) ∨
        p = Disk.placeOf here (toString (hooksPath directory stem)))
      ((directory.join hooksDirectory).OnWay here) (write as directory stem sourceName contexts) := by
  unfold write
  dsimp only
  rw [show (directory.join hooksDirectory).join (stem ++ ".js") = hooksPath directory stem from rfl,
    show directory.join (stem ++ ".js") = clientPath directory stem from rfl, parent_hooksPath hs.1]
  apply confines_bind (confines_ensureDirectories (hd.join isComponent_hooksDirectory.1) fun _ => id)
  intro _
  apply confines_bind (confines_of_keeps (keeps_ofExcept _))
  intro text
  apply confines_bind (confines_writeText (.inl rfl) text)
  intro _
  apply confines_bind (confines_writeText (.inr rfl) _)
  intro _
  exact confines_of_keeps (keeps_pure _)

theorem js_ne_json (stem name : String) : stem ++ ".js" ≠ name ++ ".json" := by
  intro h
  have hlast := congrArg (fun s => s.toList.getLast?) h
  simp at hlast

/-- Neither module lies at or below a place with the name of some output. -/
theorem not_within (out : Place) (stem name : String) :
    ∀ p, p = out ++ [stem ++ ".js"] ∨ p = out ++ [hooksDirectory, stem ++ ".js"] →
      ¬out ++ [name ++ ".json"] <+: p := by
  have hhooks : hooksDirectory ≠ name ++ ".json" := by
    intro h
    have hlast := congrArg (fun s => s.toList.getLast?) h
    simp [hooksDirectory] at hlast
  rintro p (rfl | rfl) <;> rw [List.prefix_append_right_inj, List.cons_prefix_cons]
  · exact fun h => js_ne_json _ _ h.1.symm
  · exact fun h => hhooks h.1.symm

end ContractBindings.Publication

import ContractBindings.Proofs.Publication
import ContractBindings.Proofs.Text.Literal

/-!
# The import of the client module

The hooks module imports the client module by the way to it, which stands in
single quotes. From the directory of the hooks module that way leads to the
client module. The name of the source is put into it as it is, so it is read as
the way that is meant unless the stem has a quote, a backslash or a line end.
-/

namespace ContractBindings

open Session Files

theorem Files.Disk.placeOf_up {name : String} (hs : '/' ∉ name.toList) (he : IsEntry name)
    (here : Place) : placeOf here ("../" ++ name) = here.dropLast ++ [name] := by
  have htext : ("../" ++ name).toList = ['.', '.'] ++ '/' :: name.toList := by simp
  have hname : (Text.pieces '/' name.toList).map String.ofList = [name] := by
    rw [Text.pieces_of_not_mem hs]
    simp
  rw [placeOf, htext, Text.pieces_append_sep, List.map_append, hname]
  show resolve here ["..", name] = _
  rw [resolve, if_neg (by decide), if_pos rfl, resolve_entry he, resolve]

namespace Publication

variable {s t : State} {as : Artifacts} {directory : Path} {stem : String} {sourceName : Option String}
  {contexts : Hooks.Contexts} {paths : Path × Path}

def wayToClient (stem : String) : String := "../" ++ stem ++ ".js"

/-- The hooks module as far as the opening quote in its import of the client module. -/
def untilQuote (as : Artifacts) (source : String) (contexts : Hooks.Contexts) : String :=
  linesText (Hooks.leadLines source contexts) ++ "import \x7b " ++
    ", ".intercalate ("contracts" :: as.deployable.keys) ++ " \x7d from '"

theorem wayToClient_eq (stem : String) : wayToClient stem = "../" ++ (stem ++ ".js") :=
  String.append_assoc

theorem toList_wayToClient (stem : String) :
    (wayToClient stem).toList = ['.', '.', '/'] ++ stem.toList ++ ['.', 'j', 's'] := by
  simp [wayToClient]

/-- The literal denotes the way to the client module exactly if each character of the stem stands for
itself. -/
theorem denotes_wayToClient (stem after : String) :
    Literal.Denotes (wayToClient stem ++ "'" ++ after) (wayToClient stem) ↔
      ∀ c ∈ stem.toList, Literal.isPlain c = true := by
  have hlast : (wayToClient stem).toList.getLast? ≠ some '\\' := by
    rw [toList_wayToClient, List.getLast?_append]
    exact (by decide : some 's' ≠ some '\\')
  have hfixed : ∀ c ∈ ['.', '.', '/'] ++ ['.', 'j', 's'], Literal.isPlain c = true :=
    List.all_eq_true.mp (by decide)
  rw [Literal.denotes_iff hlast, toList_wayToClient]
  constructor
  · intro h c hc
    exact h c (by simp [hc])
  · intro h c hc
    rcases List.mem_append.mp hc with hc | hc
    · rcases List.mem_append.mp hc with hc | hc
      · exact hfixed c (List.mem_append_left _ hc)
      · exact h c hc
    · exact hfixed c (List.mem_append_right _ hc)

theorem placeOf_wayToClient (hd : directory.IsNormal) (hs : '/' ∉ stem.toList) (here : Place) :
    Disk.placeOf (Disk.placeOf here (toString (hooksPath directory stem).parent)) (wayToClient stem) =
      Disk.placeOf here (toString (clientPath directory stem)) := by
  have hclient : Path.IsComponent (stem ++ ".js") ∧ stem ++ ".js" ≠ ".." :=
    Path.isComponent_append hs (by decide) (by decide)
  have hhooks : Disk.placeOf here (toString (directory.join hooksDirectory)) =
      Disk.placeOf here (toString directory) ++ [hooksDirectory] :=
    Path.placeOf_join hd isComponent_hooksDirectory.1 isComponent_hooksDirectory.2
  rw [placeOf_clientPath hd hclient, parent_hooksPath hclient.1, hhooks, wayToClient_eq,
    Disk.placeOf_up hclient.1.1 ⟨hclient.1.2.1, hclient.1.2.2, hclient.2⟩, List.dropLast_concat]

/-- The name of the source stands in the literal as it is. -/
theorem runs_write_hooks
    (h : Runs (write as directory stem sourceName contexts) s (.ok paths) t) :
    ∃ after, t.disk.read (toString (hooksPath directory stem)) = .ok (Text.Utf8.encode
      (untilQuote as (label stem sourceName) contexts ++ (wayToClient stem ++ "'" ++ after))) := by
  obtain ⟨-, text, d₁, d₂, d₃, -, -, -, hw, rfl⟩ := runs_write_iff.mp h
  have hrender := Hooks.render_eq (Binding.ofArtifacts as) (label stem sourceName) (wayToClient stem)
    contexts
  have hquote : "';\n" = "'" ++ ";\n" := by decide
  rw [Client.names_ofArtifacts, hquote] at hrender
  refine ⟨";\n" ++ linesText (Hooks.restLines (Binding.ofArtifacts as)), ?_⟩
  rw [Disk.read_write hw, show "../" ++ stem ++ ".js" = wayToClient stem from rfl, hrender, untilQuote]
  simp only [String.append_assoc]

structure ImportsClient (as : Artifacts) (directory : Path) (stem source : String)
    (contexts : Hooks.Contexts) (disk : Disk) : Prop where
  literal : ∃ after, disk.read (toString (hooksPath directory stem)) =
      .ok (Text.Utf8.encode (untilQuote as source contexts ++ after)) ∧
    (Literal.Denotes after (wayToClient stem) ↔ ∀ c ∈ stem.toList, Literal.isPlain c = true)
  way : Disk.placeOf (Disk.placeOf disk.here (toString (hooksPath directory stem).parent))
    (wayToClient stem) = Disk.placeOf disk.here (toString (clientPath directory stem))
  client : ∃ text, Client.render as (Binding.ofArtifacts as) source = .ok text ∧
    disk.read (toString (clientPath directory stem)) = .ok (Text.Utf8.encode text)

/-- **The hooks module imports the client module that is written with it, if the stem of the source has
no quote, backslash or line end.** The way in the import always leads from the one to the other, and
the literal denotes that way exactly for such stems. -/
theorem write_imports_client {out name : String}
    (h : Runs (write as (.ofString out) (Path.ofString name).stem sourceName contexts) s (.ok paths) t) :
    ImportsClient as (.ofString out) (Path.ofString name).stem
      (label (Path.ofString name).stem sourceName) contexts t.disk := by
  have hd := Path.isNormal_ofString out
  have hs := (Path.isNormal_ofString name).not_mem_stem
  generalize (Path.ofString name).stem = stem at h hs
  generalize Path.ofString out = directory at h hd
  have hclient : Path.IsComponent (stem ++ ".js") ∧ stem ++ ".js" ≠ ".." :=
    Path.isComponent_append hs (by decide) (by decide)
  obtain ⟨after, hhooks⟩ := runs_write_hooks h
  obtain ⟨-, text, d₁, d₂, d₃, -, htext, hw₁, hw₂, rfl⟩ := runs_write_iff.mp h
  refine ⟨⟨_, hhooks, denotes_wayToClient stem _⟩, placeOf_wayToClient hd hs d₃.here, text, htext, ?_⟩
  exact Disk.read_write_of_ne hw₂ (clientPath_ne_hooksPath hd hclient _) (Disk.read_write hw₁)

/-! The modules for no contracts, in an empty directory. -/

def freshState : State where
  disk := { nodes := [(["work"], .directory)], here := ["work"] }

def writeFor (name : String) : Session (Path × Path) :=
  write [] (.ofString "out") (Path.ofString name).stem (some (Path.ofString name).name) {}

theorem write_imports_client_vault : ∃ paths t, Runs (writeFor "Vault.v2.sol") freshState (.ok paths) t ∧
    (Path.ofString "Vault.v2.sol").stem = "Vault.v2" ∧
    ∃ after, t.disk.read "out/hooks/Vault.v2.js" =
        .ok (Text.Utf8.encode (untilQuote [] "Vault.v2.sol" {} ++ after)) ∧
      Literal.Denotes after "../Vault.v2.js" := by
  obtain ⟨paths, t, hrun⟩ : ∃ paths t, Runs (writeFor "Vault.v2.sol") freshState (.ok paths) t :=
    exists_ok_of_isSome (by decide +kernel)
  have hstem : (Path.ofString "Vault.v2.sol").stem = "Vault.v2" := by decide +kernel
  have hlabel : label "Vault.v2" (some (Path.ofString "Vault.v2.sol").name) = "Vault.v2.sol" := by
    decide +kernel
  have hhooks : toString (hooksPath (.ofString "out") "Vault.v2") = "out/hooks/Vault.v2.js" := by
    decide +kernel
  have himports := write_imports_client hrun
  rw [hstem, hlabel] at himports
  obtain ⟨after, hread, hdenotes⟩ := himports.literal
  rw [hhooks] at hread
  exact ⟨paths, t, hrun, hstem, after, hread, hdenotes.mpr (List.all_eq_true.mp (by decide))⟩

/-- The quote in the name of a source ends the literal. -/
theorem write_misses_client : ∃ paths t, Runs (writeFor "it's.sol") freshState (.ok paths) t ∧
    (Path.ofString "it's.sol").stem = "it's" ∧
    ∃ after, t.disk.read "out/hooks/it's.js" =
        .ok (Text.Utf8.encode (untilQuote [] "it's.sol" {} ++ after)) ∧
      Literal.Denotes after "../it" ∧ ¬Literal.Denotes after "../it's.js" := by
  obtain ⟨paths, t, hrun⟩ : ∃ paths t, Runs (writeFor "it's.sol") freshState (.ok paths) t :=
    exists_ok_of_isSome (by decide +kernel)
  have hstem : (Path.ofString "it's.sol").stem = "it's" := by decide +kernel
  have hlabel : label "it's" (some (Path.ofString "it's.sol").name) = "it's.sol" := by decide +kernel
  have hpath : toString (hooksPath (.ofString "out") "it's") = "out/hooks/it's.js" := by
    decide +kernel
  obtain ⟨after, hread⟩ := runs_write_hooks hrun
  rw [hstem, hlabel, hpath] at hread
  refine ⟨paths, t, hrun, hstem, _, hread, ?_, fun h => ?_⟩
  · have htext : (wayToClient "it's" ++ "'" ++ after).toList =
        "../it".toList ++ '\'' :: ("s.js'".toList ++ after.toList) := by
      simp [wayToClient]
    rw [Literal.Denotes, htext]
    exact ⟨_, Literal.read_of_isPlain (List.all_eq_true.mp (by decide))⟩
  · exact absurd ((denotes_wayToClient "it's" after).mp h '\'' (by decide)) (by decide)

end Publication

end ContractBindings

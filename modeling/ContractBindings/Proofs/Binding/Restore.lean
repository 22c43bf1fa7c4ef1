import ContractBindings.Proofs.Binding.Table
import ContractBindings.Proofs.Json.RoundTrip

/-!
# Artifacts from the table of the client module

The table in the text of a client module is read back as it was written, and
the artifacts that are made anew from it have the entries, and with them the
members, of those that the module was rendered for. They render to the same
text, since nothing else plays a part in it.
-/

namespace ContractBindings

/-- An artifact that its ABI and its bytecode make, apart from the address that it got later. -/
def Artifact.IsMade (a : Artifact) : Prop :=
  Artifact.ofAbi a.name a.abi a.bytecode a.source = .ok { a with address := .null }

def Artifact.isExact (a : Artifact) : Bool :=
  a.abi.isExact && a.bytecode.isExact && a.address.isExact

structure Artifacts.Sound (as : Artifacts) : Prop where
  nodup : as.keys.Nodup
  made : ∀ p ∈ as, p.2.IsMade
  exacts : ∀ p ∈ as, p.2.isExact = true

def Artifact.ofTable (name : String) (v : Json) : Except Error Artifact := do
  let a ← Artifact.ofAbi name (← v.field "abi") (← v.field "bin") none
  return { a with address := ← v.field "address" }

def Artifacts.ofTable (table : Json) : Except Error Artifacts := do
  (← table.fields?).mapM fun (name, v) => do return (name, ← Artifact.ofTable name v)

/-- An artifact as a table gives it back: under the key, and without the file it came from. -/
def Artifact.renamed : String × Artifact → String × Artifact
  | (name, a) => (name, { a with name, source := none })

variable {a : Artifact} {as : Artifacts}

/-! ## One artifact -/

theorem Artifact.ofAbi_eq_ok {name : String} {abi bytecode : Json} {source : Option String} :
    ofAbi name abi bytecode source = .ok a ↔
      ∃ items entries, abi.items? = .ok items ∧ items.mapM Abi.Entry.ofJson = .ok entries ∧
        a = { name, abi, bytecode, entries, source,
              deployable := entries.any (·.name == marker) } := by
  unfold ofAbi
  constructor
  · intro h
    obtain ⟨items, hitems, h⟩ := except_bind_eq_ok.mp h
    obtain ⟨entries, hentries, h⟩ := except_bind_eq_ok.mp h
    exact ⟨items, entries, hitems, hentries, (except_pure_eq_ok.mp h).symm⟩
  · rintro ⟨items, entries, hitems, hentries, rfl⟩
    rw [hitems, except_ok_bind, hentries, except_ok_bind]
    rfl

/-- The name and the file play no part in what an ABI makes. -/
theorem Artifact.IsMade.ofAbi (h : a.IsMade) (name : String) (source : Option String) :
    ofAbi name a.abi a.bytecode source = .ok { a with name, source, address := .null } := by
  obtain ⟨items, entries, hitems, hentries, ha⟩ := ofAbi_eq_ok.mp h
  -- the entries and the mark are read off the ABI alone
  have he : a.entries = entries := congrArg Artifact.entries ha
  have hd : a.deployable = entries.any (·.name == marker) := congrArg Artifact.deployable ha
  refine ofAbi_eq_ok.mpr ⟨items, entries, hitems, hentries, ?_⟩
  rw [he, hd]

theorem Artifact.ofTable_tableEntry (h : a.IsMade) (name : String) :
    ofTable name (Client.tableEntry (name, a)).2 = .ok { a with name, source := none } := by
  have habi : (Client.tableEntry (name, a)).2.field "abi" = .ok a.abi := rfl
  have hbin : (Client.tableEntry (name, a)).2.field "bin" = .ok a.bytecode := rfl
  have haddress : (Client.tableEntry (name, a)).2.field "address" = .ok a.address := rfl
  rw [ofTable, habi, except_ok_bind, hbin, except_ok_bind, h.ofAbi, except_ok_bind, haddress]
  rfl

/-! ## The whole table -/

theorem Artifacts.ofTable_tableEntries (h : ∀ p ∈ as, p.2.IsMade) :
    ofTable (.obj (as.map Client.tableEntry)) = .ok (as.map Artifact.renamed) := by
  rw [ofTable, Json.fields?, except_ok_bind, mapM_eq_ok_iff, List.forall₂_map_left_iff,
    List.forall₂_map_right_iff, List.forall₂_same]
  rintro ⟨name, a⟩ hm
  have hentry := Artifact.ofTable_tableEntry (h _ hm) name
  show (Artifact.ofTable name (Client.tableEntry (name, a)).2 >>= fun a => pure (name, a)) = _
  rw [hentry]
  rfl

theorem Artifacts.deployable_renamed (as : Artifacts) :
    Artifacts.deployable (as.deployable.map Artifact.renamed) = as.deployable.map Artifact.renamed := by
  apply List.filter_eq_self.mpr
  intro p hp
  obtain ⟨q, hq, rfl⟩ := List.mem_map.mp hp
  exact (List.mem_filter.mp hq).2

theorem Artifacts.keys_renamed (as : Artifacts) :
    Keyed.keys (as.map Artifact.renamed) = as.keys := by
  rw [Keyed.keys, List.map_map]
  rfl

theorem Client.tableEntry_renamed (as : Artifacts) :
    (as.map Artifact.renamed).map tableEntry = as.map tableEntry := by
  rw [List.map_map]
  rfl

theorem Binding.ofArtifacts_renamed (as : Artifacts) :
    ofArtifacts (as.deployable.map Artifact.renamed) = ofArtifacts as := by
  rw [ofArtifacts, Artifacts.deployable_renamed, List.map_map]
  rfl

theorem Json.fieldsAreExact_eq_all : ∀ fs : List (String × Json),
    fieldsAreExact fs = fs.all (·.2.isExact)
  | [] => rfl
  | (k, v) :: fs => by rw [fieldsAreExact, List.all_cons, fieldsAreExact_eq_all fs]

theorem Client.isExact_tableEntry {p : String × Artifact} (h : p.2.isExact = true) :
    (tableEntry p).2.isExact = true := by
  obtain ⟨name, a⟩ := p
  rw [Artifact.isExact, Bool.and_eq_true, Bool.and_eq_true] at h
  have hkeys : (["abi", "bin", "address"] : List String).Nodup := by decide
  rw [tableEntry, Json.isExact, Json.fieldsAreExact_eq_all]
  simp [h, hkeys]

theorem Client.isExact_table (hn : as.keys.Nodup) (h : ∀ p ∈ as, p.2.isExact = true) :
    (Json.obj (as.map tableEntry)).isExact = true := by
  have hkeys : (as.map tableEntry).map Prod.fst = as.keys := by
    rw [List.map_map]
    rfl
  rw [Json.isExact, hkeys, decide_eq_true hn, Bool.true_and, Json.fieldsAreExact_eq_all,
    List.all_map, List.all_eq_true]
  intro p hp
  exact isExact_tableEntry (h p hp)

namespace Client

theorem render_renamed (hn : as.keys.Nodup) (source : String) :
    render (as.deployable.map Artifact.renamed)
        (Binding.ofArtifacts (as.deployable.map Artifact.renamed)) source =
      render as (Binding.ofArtifacts as) source := by
  have hkeys := Artifacts.keys_renamed as.deployable
  have hn' := Keyed.nodup_keys_filter hn (·.2.deployable)
  rw [render_ofArtifacts (hkeys ▸ hn'), render_ofArtifacts hn, Artifacts.deployable_renamed,
    tableEntry_renamed, Binding.ofArtifacts_renamed]

/-- **The table is lossless.** It is read from the text of the client module as the names of the
deployable artifacts with their data, and the artifacts made from what was read have the same text. -/
theorem render_lossless (h : as.Sound) (source : String) :
    ∃ literal rest table restored,
      render as (Binding.ofArtifacts as) source = .ok (generatedNote source ++ "\n" ++
        "const contracts = " ++ literal ++ ";\n" ++ rest) ∧
      Json.read literal.toList = .ok table ∧
      table = .obj (as.deployable.map tableEntry) ∧
      Artifacts.ofTable table = .ok restored ∧
      render restored (Binding.ofArtifacts restored) source =
        render as (Binding.ofArtifacts as) source := by
  have hmade : ∀ p ∈ as.deployable, p.2.IsMade := fun p hp => h.made p (List.mem_of_mem_filter hp)
  have hexact : ∀ p ∈ as.deployable, p.2.isExact = true := fun p hp =>
    h.exacts p (List.mem_of_mem_filter hp)
  have hn := Keyed.nodup_keys_filter h.nodup (·.2.deployable)
  refine ⟨(Json.obj (as.deployable.map tableEntry)).pretty, afterTable (Binding.ofArtifacts as), _,
    as.deployable.map Artifact.renamed, ?_, ?_, rfl, ?_, render_renamed h.nodup source⟩
  · have hend : ";\n" = ";" ++ "\n" := by decide
    rw [render_ofArtifacts h.nodup, hend]
    simp only [String.append_assoc]
  · exact Json.read_pretty (isExact_table hn hexact)
  · exact Artifacts.ofTable_tableEntries hmade

def office : Artifact where
  name := "Office"
  abi := .arr [
    .obj [("name", .str "deployable"), ("gas", .int (-18446744073709551616))],
    .obj [("name", .str "sign"), ("type", .str "function"), ("notes", .obj []), ("inputs", .arr [
      .obj [("name", .str "by"), ("type", .str "tuple[]"), ("components", .arr [
        .obj [("name", .str "who"), ("type", .str "address")]])]])],
    .obj [("type", .str "event"), ("name", .str "\"\\\n\x01é😀"), ("anonymous", .bool false)]]
  bytecode := .str "0x6001"
  entries := [
    ⟨"deployable", [], false, Abi.Entry.functionKind⟩,
    ⟨"sign", [⟨"by", .tuple "[]" [.elementary "address"]⟩], false, Abi.Entry.functionKind⟩,
    ⟨"\"\\\n\x01é😀", [], false, .str "event"⟩]
  address := .str "0xA1"
  source := some "Office.sol"
  deployable := true

def desk : Artifact where
  name := "Desk"
  abi := .arr [.obj [("type", .str "fallback")]]
  bytecode := .str ""
  entries := [⟨"", [], false, .str "fallback"⟩]
  deployable := false

theorem render_lossless_office :
    Artifacts.Sound [("Desk", desk), ("Büro😀", office)] ∧
    ∃ literal rest table restored,
      render [("Desk", desk), ("Büro😀", office)]
          (Binding.ofArtifacts [("Desk", desk), ("Büro😀", office)]) "Office.sol" =
        .ok (generatedNote "Office.sol" ++ "\n" ++
          "const contracts = " ++ literal ++ ";\n" ++ rest) ∧
      Json.read literal.toList = .ok table ∧
      table = .obj [tableEntry ("Büro😀", office)] ∧
      Artifacts.ofTable table = .ok restored ∧
      render restored (Binding.ofArtifacts restored) "Office.sol" =
        render [("Desk", desk), ("Büro😀", office)]
          (Binding.ofArtifacts [("Desk", desk), ("Büro😀", office)]) "Office.sol" := by
  have hdesk : desk.IsMade := rfl
  have hoffice : office.IsMade := rfl
  have hsound : Artifacts.Sound [("Desk", desk), ("Büro😀", office)] := by
    refine ⟨by decide, ?_, ?_⟩
    · intro p hp
      rcases List.mem_pair.mp hp with rfl | rfl
      · exact hdesk
      · exact hoffice
    · intro p hp
      rcases List.mem_pair.mp hp with rfl | rfl
      · decide
      · decide
  exact ⟨hsound, render_lossless hsound "Office.sol"⟩

end Client

end ContractBindings

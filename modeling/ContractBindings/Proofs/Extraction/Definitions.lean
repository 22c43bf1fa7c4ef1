import ContractBindings.Proofs.Abi.Reading
import ContractBindings.Proofs.Binding.Restore
import ContractBindings.Proofs.Extraction

/-!
# Definitions of contracts

The output of a compiler defines contracts one after the other, and a later
definition takes the place of an earlier one with its name. So what is
extracted holds for each name what the last definition makes, the names in the
order in which they first came, and the log says for each later definition
which one it replaces. The definitions of the marker interface are none of
these.
-/

namespace ContractBindings

namespace Extraction

/-! ## Keys -/

/-- A key names a contract after its last colon, and before it the path of its file. A key without a
colon is a name. -/
def Splits (key path name : String) : Prop :=
  ':' ∉ name.toList ∧ (key = path ++ ":" ++ name ∨ (path = "" ∧ key = name))

def LeadsTo (path file : String) : Prop :=
  path = file ∨ ∃ directory, path = directory ++ "/" ++ file

def IsMarker (path name : String) : Prop := LeadsTo path "Deployable.sol" ∨ name = "Deployable"

theorem splitKey_eq_iff {key path name : String} :
    splitKey key = (path, name) ↔ Splits key path name := by
  unfold splitKey
  constructor
  · intro h
    split at h
    · next hcut =>
      cases h
      exact ⟨Text.cutLast?_eq_some.not_mem_of_cutLast? hcut, .inr ⟨rfl, rfl⟩⟩
    · next a b hcut =>
      cases h
      obtain ⟨hkey, hb⟩ := Text.cutLast?_eq_some hcut
      exact ⟨by simpa using hb, .inl (by rw [← String.toList_inj]; simp [hkey])⟩
  · rintro ⟨hname, rfl | ⟨rfl, rfl⟩⟩
    · have hkey : (path ++ ":" ++ name).toList = path.toList ++ ':' :: name.toList := by simp
      rw [hkey, Text.cutLast?_append hname]
      simp
    · rw [Text.cutLast?_of_not_mem hname]

theorem exists_splits (key : String) : ∃ path name, Splits key path name :=
  ⟨(splitKey key).1, (splitKey key).2, splitKey_eq_iff.mp (Prod.mk.eta).symm⟩

theorem fileName_eq_iff {path file : String} (hf : '/' ∉ file.toList) :
    fileName path = file ↔ LeadsTo path file := by
  unfold fileName
  constructor
  · intro h
    split at h
    · exact .inl h
    · next a b hcut =>
      subst h
      refine .inr ⟨String.ofList a, ?_⟩
      rw [← String.toList_inj]
      simp [(Text.cutLast?_eq_some hcut).1]
  · rintro (rfl | ⟨directory, rfl⟩)
    · rw [Text.cutLast?_of_not_mem hf]
    · have hpath : (directory ++ "/" ++ file).toList = directory.toList ++ '/' :: file.toList := by
        simp
      rw [hpath, Text.cutLast?_append hf]
      simp

theorem isMarker_iff {key path name : String} (h : Splits key path name) :
    isMarker key = true ↔ IsMarker path name := by
  unfold isMarker
  rw [splitKey_eq_iff.mpr h]
  simp [IsMarker, fileName_eq_iff]

/-! ## Contracts -/

def abiEntries? : Json → Option (List Json)
  | .str s =>
    if s = "" then some []
    else
      match Json.read s.toList with
      | .ok (.arr entries) => some entries
      | _ => none
  | v => Abi.listOf? v

theorem loadAbi_of_ne {s : String} (h : s ≠ "") :
    loadAbi (.str s) = (Json.read s.toList).mapError .badJson := by
  unfold loadAbi
  split
  · next he => exact absurd (Json.str.inj he) h
  · next he => rw [Json.str.inj he]
  · next hno => exact absurd rfl (hno s)

theorem loadAbi_of_entries {v : Json} {entries : List Json} (h : abiEntries? v = some entries) :
    loadAbi v = .ok (.arr entries) := by
  cases v with
  | str s =>
    rw [abiEntries?] at h
    split at h
    · next hs =>
      subst hs
      cases h
      rfl
    · next hs =>
      rw [loadAbi_of_ne hs]
      split at h
      · next hread =>
        cases h
        rw [hread]
        rfl
      · cases h
  | null | bool | int | double | arr | obj =>
    rw [abiEntries?] at h
    · exact congrArg (Json.arr <$> ·) (Abi.itemsOrNone_of_listOf? h)
    · exact fun s hs => nomatch hs

def IsContract (v : Json) : Prop :=
  ∃ fields abi, v = .obj fields ∧ abiEntries? ((Keyed.get? fields "abi").getD .null) = some abi ∧
    ∀ e ∈ abi, Abi.IsDescriptor e

/-- A definition of a contract: the path and the name in its key, its fields, and the entries of the ABI
among them. -/
structure Definition where
  path : String
  name : String
  fields : Keyed Json
  abi : List Json

namespace Definition

def isDeployable (d : Definition) : Bool :=
  d.abi.any fun e => (e.textField "name").toOption == some "deployable"

structure IsUnder (d : Definition) (key : String) : Prop where
  splits : Splits key d.path d.name
  abi : abiEntries? ((Keyed.get? d.fields "abi").getD .null) = some d.abi
  entries : ∀ e ∈ d.abi, Abi.IsDescriptor e

structure Makes (d : Definition) (a : Artifact) : Prop where
  name : a.name = d.name
  abi : a.abi = .arr d.abi
  bytecode : a.bytecode = (Keyed.get? d.fields "bin").getD (.str "")
  entries : d.abi.mapM Abi.Entry.ofJson = .ok a.entries
  address : a.address = .null
  source : a.source = if d.path = "" then none else some d.path
  deployable : a.deployable = d.isDeployable

def warning (d old : Definition) : LogLine :=
  ⟨.warning, "contract name " ++ d.name ++ " defined in both " ++
    (if old.path = "" then "None" else old.path) ++ " and " ++ d.path ++
    "; keeping the last definition"⟩

end Definition

/-- The definitions among the contracts of an output, without those of the marker interface. -/
inductive Defines : List (String × Json) → List Definition → Prop
  | nil : Defines [] []
  | marker {key path name : String} {contract : Json} {contracts : List (String × Json)}
      {ds : List Definition} : Splits key path name → IsMarker path name → Defines contracts ds →
      Defines ((key, contract) :: contracts) ds
  | contract {key : String} {d : Definition} {contracts : List (String × Json)}
      {ds : List Definition} : d.IsUnder key → ¬IsMarker d.path d.name → Defines contracts ds →
      Defines ((key, .obj d.fields) :: contracts) (d :: ds)

theorem exists_defines {contracts : List (String × Json)} (h : ∀ c ∈ contracts, IsContract c.2) :
    ∃ ds, Defines contracts ds := by
  induction contracts with
  | nil => exact ⟨[], .nil⟩
  | cons c contracts ih =>
    obtain ⟨key, contract⟩ := c
    obtain ⟨ds, hds⟩ := ih fun c hc => h c (List.mem_cons_of_mem _ hc)
    obtain ⟨path, name, hkey⟩ := exists_splits key
    by_cases hm : IsMarker path name
    · exact ⟨ds, .marker hkey hm hds⟩
    · obtain ⟨fields, abi, hobj, habi, hentries⟩ := h (key, contract) List.mem_cons_self
      cases hobj
      exact ⟨_, .contract (d := ⟨path, name, fields, abi⟩) ⟨hkey, habi, hentries⟩ hm hds⟩

def lastOf (ds : List Definition) (name : String) : Option Definition :=
  ds.reverse.find? (·.name == name)

/-- The warnings for definitions behind earlier ones: one for each that has the name of an earlier one,
which says where the last of these is. -/
def collisions (front : List Definition) : List Definition → List LogLine
  | [] => []
  | d :: ds => ((lastOf front d.name).map d.warning).toList ++ collisions (front ++ [d]) ds

theorem lastOf_append (ds : List Definition) (d : Definition) (name : String) :
    lastOf (ds ++ [d]) name = if d.name = name then some d else lastOf ds name := by
  unfold lastOf
  rw [List.reverse_concat, List.find?_cons]
  by_cases h : d.name = name
  · simp [h]
  · rw [if_neg h, beq_eq_false_iff_ne.mpr h]

/-! ## What a definition makes -/

variable {d : Definition}

theorem any_marked {abi : List Json} {entries : List Abi.Entry}
    (h : List.Forall₂ (fun e entry => Abi.Entry.ofJson e = .ok entry) abi entries) :
    abi.any (fun e => (e.textField "name").toOption == some "deployable") =
      entries.any (·.name == Artifact.marker) := by
  induction h with
  | nil => rfl
  | cons he _ ih =>
    rw [List.any_cons, List.any_cons, ih, Abi.Entry.name_of_ofJson he]
    rfl

theorem exists_loadContract {key : String} (hkey : d.IsUnder key) :
    ∃ a, loadContract key (.obj d.fields) = .ok a ∧ d.Makes a := by
  obtain ⟨entries, hread⟩ := exists_mapM_of_forall fun e he => (hkey.entries e he).exists_ofJson
  let a : Artifact := {
    name := d.name
    abi := .arr d.abi
    bytecode := (Keyed.get? d.fields "bin").getD (.str "")
    entries
    source := if d.path = "" then none else some d.path
    deployable := entries.any (·.name == Artifact.marker) }
  have hmade : Artifact.ofAbi d.name a.abi a.bytecode a.source = .ok a :=
    Artifact.ofAbi_eq_ok.mpr ⟨d.abi, entries, rfl, hread, rfl⟩
  have hmarked := any_marked (mapM_eq_ok_iff.mp hread)
  refine ⟨a, ?_, rfl, rfl, rfl, hread, rfl, rfl, hmarked.symm⟩
  unfold loadContract
  rw [splitKey_eq_iff.mpr hkey.splits]
  dsimp only
  rw [Abi.field_obj, except_ok_bind, loadAbi_of_entries hkey.abi, except_ok_bind]
  exact hmade

theorem Definition.Makes.warning {old : Definition} {a : Artifact} (h : old.Makes a) :
    Extraction.warning d.name a d.path = d.warning old := by
  unfold Extraction.warning Definition.warning
  rw [h.source]
  split <;> rfl

/-! ## One definition after the other -/

structure Holds (ds : List Definition) (found : Artifacts) : Prop where
  keys : found.keys = (ds.map (·.name)).eraseDups
  made : ∀ name, Option.Rel Definition.Makes (lastOf ds name) (found.get? name)

variable {ds : List Definition}

theorem holds_nil : Holds [] [] := ⟨rfl, fun _ => .none⟩

theorem eraseDups_concat (names : List String) (name : String) :
    (names ++ [name]).eraseDups =
      if name ∈ names.eraseDups then names.eraseDups else names.eraseDups ++ [name] := by
  have hsingle : [name].eraseDups = [name] := by simp [List.eraseDups_cons]
  rw [List.eraseDups_append]
  by_cases h : name ∈ names <;> simp [h, List.removeAll, hsingle]

theorem Holds.insert {a : Artifact} (h : Holds ds found) (ha : d.Makes a) :
    Holds (ds ++ [d]) (found.insert d.name a) := by
  constructor
  · rw [Keyed.keys_insert, h.keys, List.map_append, List.map_singleton, eraseDups_concat]
  · intro name
    rw [lastOf_append]
    by_cases hname : d.name = name
    · subst hname
      rw [if_pos rfl, Keyed.get?_insert_self]
      exact .some ha
    · rw [if_neg hname, Keyed.get?_insert_of_ne hname]
      exact h.made name

theorem Holds.warnings (h : Holds ds found) (d : Definition) :
    Extraction.warnings found d.path d.name = ((lastOf ds d.name).map d.warning).toList := by
  have hmade := h.made d.name
  unfold Extraction.warnings
  generalize lastOf ds d.name = old, found.get? d.name = a at hmade ⊢
  cases hmade with
  | none => rfl
  | some ha => exact congrArg ([·]) ha.warning

/-- A definition is stored under its name, with a warning if there is one with that name already. -/
theorem runs_addContract {key : String} (h : Holds ds found) (hkey : d.IsUnder key)
    (hm : ¬IsMarker d.path d.name) :
    ∃ found', Runs (addContract found key (.obj d.fields)) lines (.ok found')
      (lines ++ ((lastOf ds d.name).map d.warning).toList) ∧ Holds (ds ++ [d]) found' := by
  obtain ⟨a, hload, ha⟩ := exists_loadContract hkey
  refine ⟨found.insert d.name a, ?_, h.insert ha⟩
  unfold addContract
  rw [if_neg (mt (isMarker_iff hkey.splits).mp hm), splitKey_eq_iff.mpr hkey.splits]
  dsimp only
  rw [runs_bind_of_ok (runs_liftM.mpr ⟨hload.symm, rfl⟩), ← h.warnings d, warnings]
  cases found.get? d.name with
  | none => exact runs_pure.mpr ⟨rfl, List.append_nil _⟩
  | some old =>
    dsimp only
    rw [runs_modify_bind]
    exact runs_pure.mpr ⟨rfl, rfl⟩

theorem runs_foldlM {contracts : List (String × Json)} {rest : List Definition}
    (hd : Defines contracts rest) : ∀ {ds : List Definition} {found : Artifacts}
      (lines : List LogLine), Holds ds found →
    ∃ all, Runs (contracts.foldlM (fun found (key, contract) => addContract found key contract) found)
      lines (.ok all) (lines ++ collisions ds rest) ∧ Holds (ds ++ rest) all := by
  induction hd with
  | nil =>
    intro ds found lines h
    rw [List.append_nil, List.foldlM_nil]
    exact ⟨found, runs_pure.mpr ⟨rfl, List.append_nil _⟩, h⟩
  | @marker key path name contract contracts rest hkey hm _ ih =>
    intro ds found lines h
    have hskip : Runs (addContract found key contract) lines (.ok found) lines := by
      unfold addContract
      rw [if_pos ((isMarker_iff hkey).mpr hm)]
      exact runs_pure.mpr ⟨rfl, rfl⟩
    obtain ⟨all, hrest, hall⟩ := ih lines h
    refine ⟨all, ?_, hall⟩
    rw [List.foldlM_cons]
    exact (runs_bind_of_ok hskip).mpr hrest
  | @contract key d contracts rest hkey hm _ ih =>
    intro ds found lines h
    obtain ⟨found', hadd, h'⟩ := runs_addContract h hkey hm
    obtain ⟨all, hrest, hall⟩ := ih (lines ++ ((lastOf ds d.name).map d.warning).toList) h'
    refine ⟨all, ?_, by simpa using hall⟩
    rw [List.foldlM_cons, collisions, ← List.append_assoc]
    exact (runs_bind_of_ok hadd).mpr hrest

/-! ## What is extracted -/

/-- What definitions come to. Their names are the keys, in the order in which they first came, and the
last definition with each of them makes what is kept; the marker interface is not there; and of what is
kept the contracts to deploy are those whose last definition says so. -/
structure Extracted (ds : List Definition) (all : Artifacts) : Prop where
  keys : all.keys = (ds.map (·.name)).eraseDups
  made : ∀ name ∈ all.keys, ∃ d a, lastOf ds name = some d ∧ all.get? name = some a ∧ d.Makes a
  unmarked : "Deployable" ∉ all.keys
  sources : ∀ p ∈ all, ∀ path, p.2.source = some path → ¬LeadsTo path "Deployable.sol"
  deployable : all.deployable.keys =
    all.keys.filter fun name => (lastOf ds name).any (·.isDeployable)

theorem Defines.unmarked {contracts : List (String × Json)} (h : Defines contracts ds) :
    ∀ d ∈ ds, ¬IsMarker d.path d.name := by
  induction h with
  | nil => exact fun _ hd => (List.not_mem_nil hd).elim
  | marker _ _ _ ih => exact ih
  | contract _ hm _ ih => exact List.forall_mem_cons.mpr ⟨hm, ih⟩

theorem exists_lastOf {name : String} (h : name ∈ ds.map (·.name)) : ∃ d, lastOf ds name = some d := by
  obtain ⟨d, hd, rfl⟩ := List.mem_map.mp h
  rw [← Option.isSome_iff_exists, lastOf, List.find?_isSome]
  exact ⟨d, List.mem_reverse.mpr hd, beq_self_eq_true _⟩

theorem lastOf_eq_some {name : String} (h : lastOf ds name = some d) : d ∈ ds ∧ d.name = name := by
  unfold lastOf at h
  exact ⟨List.mem_reverse.mp (List.mem_of_find?_eq_some h), by simpa using List.find?_some h⟩

theorem Holds.exists_made {all : Artifacts} (h : Holds ds all) {name : String} (hn : name ∈ all.keys) :
    ∃ d a, lastOf ds name = some d ∧ all.get? name = some a ∧ d.Makes a := by
  rw [h.keys, List.mem_eraseDups] at hn
  obtain ⟨d, hd⟩ := exists_lastOf hn
  have hmade := h.made name
  rw [hd] at hmade
  generalize all.get? name = a at hmade ⊢
  cases hmade with
  | some ha => exact ⟨d, _, hd, rfl, ha⟩

theorem Holds.extracted {all : Artifacts} (h : Holds ds all) (hn : all.keys.Nodup)
    (hm : ∀ d ∈ ds, ¬IsMarker d.path d.name) : Extracted ds all := by
  have hmade : ∀ p ∈ all, ∃ d, lastOf ds p.1 = some d ∧ d.Makes p.2 := by
    intro p hp
    obtain ⟨d, a, hd, ha, hmakes⟩ := h.exists_made (List.mem_map_of_mem hp)
    cases (Keyed.get?_of_mem hn hp).symm.trans ha
    exact ⟨d, hd, hmakes⟩
  refine ⟨h.keys, fun name hname => h.exists_made hname, fun hmarker => ?_, ?_, ?_⟩
  · obtain ⟨d, _, hd, -⟩ := h.exists_made hmarker
    obtain ⟨hmem, hname⟩ := lastOf_eq_some hd
    exact hm d hmem (.inr hname)
  · intro p hp path hpath hleads
    obtain ⟨d, hd, hmakes⟩ := hmade p hp
    rw [hmakes.source] at hpath
    split at hpath
    · cases hpath
    · cases hpath
      exact hm d (lastOf_eq_some hd).1 (.inl hleads)
  · unfold Artifacts.deployable Keyed.keys
    rw [List.filter_map]
    refine congrArg (List.map Prod.fst) (List.filter_congr fun p hp => ?_)
    obtain ⟨d, hd, hmakes⟩ := hmade p hp
    rw [Function.comp_apply, hd, Option.any_some, hmakes.deployable]

/-- **The last definition with a name counts, and its name keeps its place.** Where the contracts of an
output have well-formed ABIs, they give definitions and are all read, what comes of them is what
`Extracted` says, and the log has one new line for each definition that takes the place of another
one. -/
theorem extract_and_select {combined : Json} {contracts : List (String × Json)}
    (h : combined.field "contracts" = .ok (.obj contracts)) (hw : ∀ c ∈ contracts, IsContract c.2)
    (lines : List LogLine) :
    (∃ ds, Defines contracts ds) ∧ ∀ ds, Defines contracts ds → ∃ all,
      Runs (run combined) lines (.ok all) (lines ++ collisions [] ds) ∧ Extracted ds all := by
  refine ⟨exists_defines hw, fun ds hds => ?_⟩
  obtain ⟨all, hrun, hall⟩ := runs_foldlM hds lines holds_nil
  rw [← run_of_contracts h] at hrun
  exact ⟨all, hrun, hall.extracted (nodup_keys_run hrun) hds.unmarked⟩

/-! Seven contracts of an output: three of one name after the first one, one of them without a path, and
two of the marker interface. -/

def deployableEntry : Json := .obj [("type", .str "function"), ("name", .str "deployable")]

def payEntry : Json :=
  .obj [("name", .str "pay"), ("inputs", .arr [.obj [("name", .str "legs"), ("type", .str "tuple[]"),
    ("components", .arr [.obj [("name", .str "to"), ("type", .str "address")]])]])]

def output : Keyed Json :=
  let contract (abi : Json) : Json := .obj [("abi", abi), ("bin", .str "60")]
  [("a.sol:Vault", contract (.arr [deployableEntry])),
   ("lib/Deployable.sol:Bank", contract (.arr [deployableEntry])),
   ("b:c.sol:Vault", contract (.arr [payEntry])),
   ("Bank", contract (.str "[\x7b\"type\": \"function\", \"name\": \"deployable\"\x7d]")),
   (":Vault", contract (.arr [payEntry, deployableEntry])),
   ("d.sol:Deployable", contract .null),
   ("e.sol:Vault", contract (.arr [payEntry]))]

theorem isDescriptor_deployableEntry : Abi.IsDescriptor deployableEntry :=
  ⟨_, [], rfl, rfl, List.forall_mem_nil _⟩

theorem isDescriptor_payEntry : Abi.IsDescriptor payEntry := by
  refine ⟨_, _, rfl, rfl, List.forall_mem_singleton.mpr ?_⟩
  exact @Abi.IsParameter.tuple _ "[]" _ rfl rfl (List.forall_mem_singleton.mpr (.elementary rfl (by decide)))

theorem isContract_output : ∀ c ∈ output, IsContract c.2 := by
  have hcontract : ∀ {fields : Keyed Json} {abi : List Json},
      abiEntries? ((Keyed.get? fields "abi").getD .null) = some abi →
      (∀ e ∈ abi, e ∈ [deployableEntry, payEntry]) → IsContract (.obj fields) := by
    intro fields abi habi he
    refine ⟨fields, abi, rfl, habi, fun e hm => ?_⟩
    rcases List.mem_pair.mp (he e hm) with rfl | rfl
    · exact isDescriptor_deployableEntry
    · exact isDescriptor_payEntry
  have htext : abiEntries? (.str "[\x7b\"type\": \"function\", \"name\": \"deployable\"\x7d]") =
      some [deployableEntry] := by decide +kernel
  unfold output
  simp only [List.forall_mem_cons]
  refine ⟨hcontract rfl ?_, hcontract rfl ?_, hcontract rfl ?_, hcontract htext ?_, hcontract rfl ?_,
    hcontract rfl ?_, hcontract rfl ?_, List.forall_mem_nil _⟩
  all_goals simp

theorem extract_and_select_vaults :
    Json.field (.obj [("contracts", .obj output)]) "contracts" = .ok (.obj output) ∧
    (∀ c ∈ output, IsContract c.2) ∧
    ∃ ds all, Defines output ds ∧
      Runs (run (.obj [("contracts", .obj output)])) [] (.ok all) (collisions [] ds) ∧
      Extracted ds all ∧ (collisions [] ds).length = 3 ∧ all.keys = ["Vault", "Bank"] ∧
      all.deployable.keys = ["Bank"] := by
  have hfield : Json.field (.obj [("contracts", .obj output)]) "contracts" = .ok (.obj output) := rfl
  obtain ⟨⟨ds, hds⟩, hextract⟩ := extract_and_select hfield isContract_output []
  obtain ⟨all, hrun, hall⟩ := hextract ds hds
  have hlines : ((run (.obj [("contracts", .obj output)])).run.run []).2.length = 3 := by
    decide +kernel
  have hnames : ((run (.obj [("contracts", .obj output)])).run.run []).1.toOption.map
      (fun all => (all.keys, all.deployable.keys)) = some (["Vault", "Bank"], ["Bank"]) := by
    decide +kernel
  rw [hrun] at hlines hnames
  have hpair := Prod.mk.inj (Option.some.inj hnames)
  exact ⟨hfield, isContract_output, ds, all, hds, hrun, hall, hlines, hpair.1, hpair.2⟩

end Extraction

end ContractBindings

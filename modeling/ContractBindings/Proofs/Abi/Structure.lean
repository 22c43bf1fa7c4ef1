import ContractBindings.Proofs.Abi.Signature
import ContractBindings.Proofs.Outcome
import ContractBindings.Proofs.Text.Split

/-!
# Canonical types tell the structure

Two parameters of an ABI have one structure if they name one elementary type,
or one kind of tuple with components that have one structure in pairs; their
own names play no part. This is said of the parameters as the ABI gives them.
A proper parameter has a shape, and parameters of one structure are those of
one shape, so a canonical type belongs to one structure, and a signature to
one name and one list of structures (`canonical_iff_sameStructure`).
-/

namespace ContractBindings.Abi

/-! ## Parameters as an ABI gives them -/

/-- The items of a value that is a list. A value that counts as false has none, and any other value is
no list. -/
def listOf? : Json → Option (List Json)
  | .arr items => some items
  | v => if v.isTruthy then none else some []

def listed? (fields : Keyed Json) (name : String) : Option (List Json) :=
  listOf? ((Keyed.get? fields name).getD .null)

/-- A parameter of a proper type: no name of a type holds a mark, and that of an elementary one is not
empty and does not start like that of a tuple. -/
inductive IsProper : Json → Prop
  | elementary {fields : Keyed Json} {type : String} :
    Keyed.get? fields "type" = some (.str type) → type ≠ "" → ¬Shape.tupleWord <+: type.toList →
      isPlain type.toList = true → IsProper (.obj fields)
  | tuple {fields : Keyed Json} {suffix : String} {components : List Json} :
    Keyed.get? fields "type" = some (.str ("tuple" ++ suffix)) → isPlain suffix.toList = true →
      listed? fields "components" = some components → (∀ c ∈ components, IsProper c) →
      IsProper (.obj fields)

/-- Parameters of one elementary type, or of one kind of tuple with components of one structure. -/
inductive SameStructure : Json → Json → Prop
  | elementary {fields fields' : Keyed Json} {type : String} :
    Keyed.get? fields "type" = some (.str type) → Keyed.get? fields' "type" = some (.str type) →
      ¬Shape.tupleWord <+: type.toList → SameStructure (.obj fields) (.obj fields')
  | tuple {fields fields' : Keyed Json} {suffix : String} {components components' : List Json} :
    Keyed.get? fields "type" = some (.str ("tuple" ++ suffix)) →
      Keyed.get? fields' "type" = some (.str ("tuple" ++ suffix)) →
      listed? fields "components" = some components →
      listed? fields' "components" = some components' →
      List.Forall₂ SameStructure components components' → SameStructure (.obj fields) (.obj fields')

theorem starts_with_tupleWord (suffix : String) : Shape.tupleWord <+: ("tuple" ++ suffix).toList :=
  ⟨suffix.toList, by rw [String.toList_append]; rfl⟩

namespace SameStructure

theorem of_elementary {fields : Keyed Json} {type : String} {q : Json}
    (h : SameStructure (.obj fields) q) (htype : Keyed.get? fields "type" = some (.str type))
    (hword : ¬Shape.tupleWord <+: type.toList) :
    ∃ fields', q = .obj fields' ∧ Keyed.get? fields' "type" = some (.str type) := by
  cases h with
  | elementary h h' =>
    cases htype.symm.trans h
    exact ⟨_, rfl, h'⟩
  | tuple h =>
    cases htype.symm.trans h
    exact absurd (starts_with_tupleWord _) hword

theorem of_tuple {fields : Keyed Json} {suffix : String} {components : List Json} {q : Json}
    (h : SameStructure (.obj fields) q)
    (htype : Keyed.get? fields "type" = some (.str ("tuple" ++ suffix)))
    (hc : listed? fields "components" = some components) :
    ∃ fields' components', q = .obj fields' ∧
      Keyed.get? fields' "type" = some (.str ("tuple" ++ suffix)) ∧
      listed? fields' "components" = some components' ∧
      List.Forall₂ SameStructure components components' := by
  cases h with
  | elementary h _ hword =>
    cases htype.symm.trans h
    exact absurd (starts_with_tupleWord _) hword
  | tuple h h' hl hl' hcs =>
    rw [← Option.some.inj (htype.symm.trans h)] at h'
    cases hc.symm.trans hl
    exact ⟨_, _, rfl, h', hl', hcs⟩

end SameStructure

theorem listOf?_eq_some {v : Json} {items : List Json} (h : listOf? v = some items) :
    v = .arr items ∨ v.isTruthy = false ∧ items = [] := by
  unfold listOf? at h
  split at h
  · exact .inl (by rw [Option.some.inj h])
  · split at h
    · cases h
    · next hv => exact .inr ⟨(Bool.not_eq_true _).mp hv, (Option.some.inj h).symm⟩

theorem itemsOrNone_of_listOf? {v : Json} {items : List Json} (h : listOf? v = some items) :
    v.itemsOrNone = .ok items := by
  unfold Json.itemsOrNone
  rcases listOf?_eq_some h with rfl | ⟨hv, rfl⟩
  · cases items <;> rfl
  · rw [hv]; rfl

/-! ## Fields of an object -/

theorem field_obj (fields : Keyed Json) (name : String) :
    Json.field (.obj fields) name = .ok ((Keyed.get? fields name).getD .null) := rfl

theorem textField_obj (fields : Keyed Json) (name : String) :
    Json.textField (.obj fields) name = .ok (((Keyed.get? fields name).map Json.display).getD "") := by
  unfold Json.textField Json.field?
  rw [except_ok_bind]
  cases Keyed.get? fields name <;> rfl

theorem textField_of_text {fields : Keyed Json} {name text : String}
    (h : Keyed.get? fields name = some (.str text)) : Json.textField (.obj fields) name = .ok text := by
  rw [textField_obj, h]
  rfl

/-! ## Shapes of proper parameters -/

namespace Shape

theorem ofList_eq_mapM : ∀ vs : List Json, ofList vs = vs.mapM ofJson
  | [] => rfl
  | v :: vs => by
    rw [ofList, List.mapM_cons, ofList_eq_mapM vs]
    rfl

theorem ofComponents_of_not_truthy {v : Json} (h : v.isTruthy = false) : ofComponents v = .ok [] := by
  cases v with
  | arr items =>
    cases items with
    | nil => rfl
    | cons => cases h
  | str s =>
    have hs : s = "" := by simpa [Json.isTruthy] using h
    rw [hs, ofComponents]
  | obj fields =>
    cases fields with
    | nil => rw [ofComponents]
    | cons => cases h
  | null | bool | int | double => simp [ofComponents, h]

theorem componentsIn_eq : ∀ fields : Keyed Json,
    componentsIn fields = ofComponents ((Keyed.get? fields "components").getD .null)
  | [] => rfl
  | (k, v) :: fields => by
    rw [componentsIn, Keyed.get?]
    split
    · rfl
    · exact componentsIn_eq fields

theorem componentsIn_of_listed? {fields : Keyed Json} {components : List Json}
    (h : listed? fields "components" = some components) :
    componentsIn fields = components.mapM ofJson := by
  rw [componentsIn_eq]
  rcases listOf?_eq_some h with hv | ⟨hv, rfl⟩
  · rw [hv, ofComponents, ofList_eq_mapM]
  · rw [ofComponents_of_not_truthy hv]; rfl

theorem dropLead?_tupleWord {type : String} (h : ¬tupleWord <+: type.toList) :
    Text.dropLead? tupleWord type.toList = none := by
  rw [← Option.not_isSome_iff_eq_none, Text.isSome_dropLead?_iff]
  exact h

theorem ofJson_elementary {fields : Keyed Json} {type : String}
    (h : Json.textField (.obj fields) "type" = .ok type) (hword : ¬tupleWord <+: type.toList) :
    ofJson (.obj fields) = .ok (elementary type) := by
  rw [ofJson, h, except_ok_bind, dropLead?_tupleWord hword]

theorem ofJson_tuple {fields : Keyed Json} {suffix : String} {components : List Json}
    {shapes : List Shape} (h : Json.textField (.obj fields) "type" = .ok ("tuple" ++ suffix))
    (hc : listed? fields "components" = some components) (hs : components.mapM ofJson = .ok shapes) :
    ofJson (.obj fields) = .ok (tuple suffix shapes) := by
  have hdrop : Text.dropLead? tupleWord ("tuple" ++ suffix).toList = some suffix.toList :=
    Text.dropLead?_eq_some_iff.mpr (by rw [String.toList_append]; rfl)
  rw [ofJson, h, except_ok_bind, hdrop]
  dsimp only
  rw [componentsIn_of_listed? hc, hs, except_ok_bind, String.ofList_toList]

/-- A proper parameter has a shape, and a well-formed one. -/
theorem exists_ofJson {p : Json} (h : IsProper p) : ∃ s, ofJson p = .ok s ∧ isWellFormed s = true := by
  induction h with
  | elementary htype hne hword hplain =>
    refine ⟨_, ofJson_elementary (textField_of_text htype) hword, ?_⟩
    have hdrop : Text.dropLead? tupleWord _ = none := dropLead?_tupleWord hword
    rw [isWellFormed, hdrop, hplain]
    simpa using hne
  | tuple htype hplain hc _ ih =>
    obtain ⟨shapes, hs, hshapes⟩ := exists_mapM_eq_ok ih
    refine ⟨_, ofJson_tuple (textField_of_text htype) hc hs, ?_⟩
    rw [isWellFormed, hplain, areWellFormed_iff.mpr hshapes]
    rfl

/-- Proper parameters have one structure exactly if they have one shape. -/
theorem sameStructure_iff {p : Json} (hp : IsProper p) : ∀ {q : Json} {s t : Shape}, IsProper q →
    ofJson p = .ok s → ofJson q = .ok t → (SameStructure p q ↔ s = t) := by
  induction hp with
  | elementary htype _ hword =>
    intro q s t hq hs ht
    cases (ofJson_elementary (textField_of_text htype) hword).symm.trans hs
    constructor
    · intro h
      obtain ⟨_, rfl, h'⟩ := h.of_elementary htype hword
      exact Except.ok.inj ((ofJson_elementary (textField_of_text h') hword).symm.trans ht)
    · rintro rfl
      cases hq with
      | elementary htype' _ hword' =>
        cases (ofJson_elementary (textField_of_text htype') hword').symm.trans ht
        exact .elementary htype htype' hword
      | tuple htype' _ hc' hproper' =>
        obtain ⟨_, hshapes', -⟩ := exists_mapM_eq_ok fun c hm => exists_ofJson (hproper' c hm)
        cases (ofJson_tuple (textField_of_text htype') hc' hshapes').symm.trans ht
  | tuple htype _ hc hproper ih =>
    intro q s t hq hs ht
    obtain ⟨shapes, hshapes, -⟩ := exists_mapM_eq_ok fun c hm => exists_ofJson (hproper c hm)
    cases (ofJson_tuple (textField_of_text htype) hc hshapes).symm.trans hs
    cases hq with
    | elementary htype' _ hword' =>
      cases (ofJson_elementary (textField_of_text htype') hword').symm.trans ht
      refine iff_of_false (fun h => ?_) (by simp)
      obtain ⟨_, _, hq, h', -⟩ := h.of_tuple htype hc
      cases hq
      cases htype'.symm.trans h'
      exact hword' (starts_with_tupleWord _)
    | tuple htype' _ hc' hproper' =>
      obtain ⟨shapes', hshapes', -⟩ := exists_mapM_eq_ok fun c hm => exists_ofJson (hproper' c hm)
      cases (ofJson_tuple (textField_of_text htype') hc' hshapes').symm.trans ht
      have hlists := forall₂_iff_mapM_eq hshapes hshapes' fun c hm c' hm' _ _ =>
        ih c hm (hproper' c' hm')
      rw [tuple.injEq, ← hlists]
      constructor
      · intro h
        obtain ⟨_, _, hq, h', hl, hcs⟩ := h.of_tuple htype hc
        cases hq
        cases hc'.symm.trans hl
        have hsuffix := htype'.symm.trans h'
        rw [Option.some.injEq, Json.str.injEq, String.append_right_inj] at hsuffix
        exact ⟨hsuffix.symm, hcs⟩
      · rintro ⟨rfl, hcs⟩
        exact .tuple htype htype' hc hc' hcs

theorem canonical_inj {s t : Shape} (hs : isWellFormed s = true) (ht : isWellFormed t = true) :
    s.canonical = t.canonical ↔ s = t := by
  refine ⟨fun h => ?_, fun h => by rw [h]⟩
  have hchars : s.chars ++ [] = t.chars ++ [] := by
    simpa [canonical] using congrArg String.toList h
  have hstop : Stops (!isMark ·) [] := fun _ hc => by cases hc
  exact (chars_append_inj hs ht hstop hstop hchars).1

end Shape

/-! ## Entries -/

theorem Parameter.exists_ofJson {p : Json} (h : IsProper p) :
    ∃ q, Parameter.ofJson p = .ok q ∧ q.shape.isWellFormed = true := by
  obtain ⟨s, hs, hw⟩ := Shape.exists_ofJson h
  have hname : ∃ name, p.textField "name" = .ok name := by
    cases h <;> exact ⟨_, textField_obj _ _⟩
  obtain ⟨name, hname⟩ := hname
  refine ⟨⟨name, s⟩, ?_, hw⟩
  rw [Parameter.ofJson, hname, except_ok_bind, hs]
  rfl

theorem Parameter.mapM_shape {ps : List Json} {params : List Parameter}
    (h : ps.mapM Parameter.ofJson = .ok params) : ps.mapM Shape.ofJson = .ok (params.map (·.shape)) := by
  rw [mapM_eq_ok_iff] at h ⊢
  rw [List.forall₂_map_right_iff]
  refine h.imp fun p q hq => ?_
  obtain ⟨name, -, hq⟩ := except_bind_eq_ok.mp hq
  obtain ⟨shape, hs, hq⟩ := except_bind_eq_ok.mp hq
  rw [← except_pure_eq_ok.mp hq]
  exact hs

/-- An entry with proper parameters is read, and its shapes are those of its parameters. -/
theorem Entry.exists_ofJson {fields : Keyed Json} {inputs : List Json}
    (hl : listed? fields "inputs" = some inputs) (hproper : ∀ p ∈ inputs, IsProper p) :
    ∃ e, Entry.ofJson (.obj fields) = .ok e ∧
      inputs.mapM Shape.ofJson = .ok e.shapes ∧ ∀ s ∈ e.shapes, s.isWellFormed = true := by
  obtain ⟨params, hparams, hw⟩ :=
    exists_mapM_eq_ok fun p hp => Parameter.exists_ofJson (hproper p hp)
  have hitems := itemsOrNone_of_listOf? hl
  unfold Entry.ofJson
  simp only [field_obj, textField_obj, except_ok_bind, hitems, hparams]
  refine ⟨_, rfl, Parameter.mapM_shape hparams, ?_⟩
  intro s hs
  obtain ⟨q, hq, rfl⟩ := List.mem_map.mp hs
  exact hw q hq

/-! ## Canonical types and signatures -/

/-- **A canonical type belongs to one structure, and a signature to one name and one list of
structures.** Every proper parameter has a canonical type and every entry with proper parameters a
signature; two of them are the same exactly if the structures are, whatever the parameters are called. -/
theorem canonical_iff_sameStructure :
    (∀ p q : Json, IsProper p → IsProper q → ∃ s t, Shape.ofJson p = .ok s ∧ Shape.ofJson q = .ok t ∧
      (s.canonical = t.canonical ↔ SameStructure p q)) ∧
    (∀ (v w : Keyed Json) (ps qs : List Json), listed? v "inputs" = some ps →
      listed? w "inputs" = some qs → (∀ p ∈ ps, IsProper p) → (∀ q ∈ qs, IsProper q) →
      ∃ e f, Entry.ofJson (.obj v) = .ok e ∧ Entry.ofJson (.obj w) = .ok f ∧
        ('(' ∉ e.name.toList → '(' ∉ f.name.toList →
          (e.signature = f.signature ↔ e.name = f.name ∧ List.Forall₂ SameStructure ps qs))) := by
  refine ⟨fun p q hp hq => ?_, fun v w ps qs hps hqs hp hq => ?_⟩
  · obtain ⟨s, hs, hsw⟩ := Shape.exists_ofJson hp
    obtain ⟨t, ht, htw⟩ := Shape.exists_ofJson hq
    refine ⟨s, t, hs, ht, ?_⟩
    rw [Shape.canonical_inj hsw htw, Shape.sameStructure_iff hp hq hs ht]
  · obtain ⟨e, he, hes, hew⟩ := Entry.exists_ofJson hps hp
    obtain ⟨f, hf, hfs, hfw⟩ := Entry.exists_ofJson hqs hq
    refine ⟨e, f, he, hf, fun hne hnf => ?_⟩
    have hlists := forall₂_iff_mapM_eq hes hfs fun p hm q hm' _ _ =>
      Shape.sameStructure_iff (hp p hm) (hq q hm')
    rw [hlists]
    constructor
    · exact Entry.signature_inj ⟨hne, hew⟩ ⟨hnf, hfw⟩
    · rintro ⟨hname, hshapes⟩
      rw [Entry.signature, Entry.signature, hname, hshapes]

def legs (receiver flag : String) : Json :=
  .obj [("name", .str "legs"), ("type", .str "tuple[2]"), ("components", .arr [
    .obj [("name", .str receiver), ("type", .str "address")],
    .obj [("name", .str "inner"), ("type", .str "tuple"), ("components", .arr [
      .obj [("name", .str flag), ("type", .str "bool")]])]])]

def flatLegs : Json :=
  .obj [("name", .str "legs"), ("type", .str "tuple[2]"), ("components", .arr [
    .obj [("name", .str "to"), ("type", .str "address")],
    .obj [("name", .str "flag"), ("type", .str "bool")]])]

theorem isProper_named (name : String) {type : String} (h : type ∈ ["address", "bool"]) :
    IsProper (.obj [("name", .str name), ("type", .str type)]) := by
  have hproper : type ≠ "" ∧ ¬Shape.tupleWord <+: type.toList ∧ isPlain type.toList = true :=
    (by decide : ∀ type ∈ ["address", "bool"],
      type ≠ "" ∧ ¬Shape.tupleWord <+: type.toList ∧ isPlain type.toList = true) type h
  exact .elementary rfl hproper.1 hproper.2.1 hproper.2.2

theorem isProper_legs (receiver flag : String) : IsProper (legs receiver flag) := by
  apply @IsProper.tuple _ "[2]" _ rfl (by decide) rfl
  refine List.forall_mem_cons.mpr ⟨isProper_named receiver (by decide), ?_⟩
  refine List.forall_mem_cons.mpr ⟨?_, by simp⟩
  apply @IsProper.tuple _ "" _ rfl (by decide) rfl
  exact List.forall_mem_cons.mpr ⟨isProper_named flag (by decide), by simp⟩

theorem isProper_flatLegs : IsProper flatLegs := by
  apply @IsProper.tuple _ "[2]" _ rfl (by decide) rfl
  refine List.forall_mem_cons.mpr ⟨isProper_named "to" (by decide), ?_⟩
  exact List.forall_mem_cons.mpr ⟨isProper_named "flag" (by decide), by simp⟩

theorem sameStructure_legs (receiver flag receiver' flag' : String) :
    SameStructure (legs receiver flag) (legs receiver' flag') := by
  apply @SameStructure.tuple _ _ "[2]" _ _ rfl rfl rfl rfl
  refine .cons (.elementary rfl rfl (by decide)) (.cons ?_ .nil)
  apply @SameStructure.tuple _ _ "" _ _ rfl rfl rfl rfl
  exact .cons (.elementary rfl rfl (by decide)) .nil

def submission (leg : Json) : Keyed Json := [("name", .str "submit"), ("inputs", .arr [leg])]

def submissionEntry : Entry where
  name := "submit"
  parameters := [⟨"legs", .tuple "[2]" [.elementary "address", .tuple "" [.elementary "bool"]]⟩]
  payable := false
  kind := Entry.functionKind

theorem canonical_iff_sameStructure_legs :
    ¬SameStructure (legs "to" "flag") flatLegs ∧
    submissionEntry.signature = "submit((address,(bool))[2])" ∧
    ∃ e f, Entry.ofJson (.obj (submission (legs "to" "flag"))) = .ok e ∧
      Entry.ofJson (.obj (submission (legs "from" "done"))) = .ok f ∧
      e = submissionEntry ∧ e.signature = f.signature := by
  refine ⟨fun h => ?_, by decide, ?_⟩
  · obtain ⟨s, t, hs, ht, hiff⟩ :=
      canonical_iff_sameStructure.1 _ _ (isProper_legs "to" "flag") isProper_flatLegs
    have hs' : Shape.ofJson (legs "to" "flag") =
      .ok (.tuple "[2]" [.elementary "address", .tuple "" [.elementary "bool"]]) := rfl
    have ht' : Shape.ofJson flatLegs =
      .ok (.tuple "[2]" [.elementary "address", .elementary "bool"]) := rfl
    cases hs'.symm.trans hs
    cases ht'.symm.trans ht
    exact absurd (hiff.mpr h) (by decide)
  · have hread : ∀ receiver flag, Entry.ofJson (.obj (submission (legs receiver flag))) =
      .ok submissionEntry := fun _ _ => rfl
    have hproper : ∀ receiver flag, ∀ p ∈ [legs receiver flag], IsProper p := fun receiver flag =>
      List.forall_mem_singleton.mpr (isProper_legs receiver flag)
    obtain ⟨e, f, he, hf, hiff⟩ := canonical_iff_sameStructure.2 (submission (legs "to" "flag"))
      (submission (legs "from" "done")) _ _ rfl rfl (hproper _ _) (hproper _ _)
    cases (hread "to" "flag").symm.trans he
    cases (hread "from" "done").symm.trans hf
    refine ⟨_, _, he, hf, rfl, (hiff (by decide) (by decide)).mpr ⟨rfl, ?_⟩⟩
    exact .cons (sameStructure_legs _ _ _ _) .nil

end ContractBindings.Abi

import ContractBindings.Proofs.Abi.Structure

/-!
# Entries that can be read

A parameter is an object, and where its type starts like that of a tuple it
lists its components; an entry of an ABI is an object that lists parameters as
its inputs. The texts in them may be any. Every such entry is read, under the
name that it gives.
-/

namespace ContractBindings.Abi

inductive IsParameter : Json → Prop
  | elementary {fields : Keyed Json} {type : String} :
    Json.textField (.obj fields) "type" = .ok type → ¬Shape.tupleWord <+: type.toList →
      IsParameter (.obj fields)
  | tuple {fields : Keyed Json} {suffix : String} {components : List Json} :
    Json.textField (.obj fields) "type" = .ok ("tuple" ++ suffix) →
      listed? fields "components" = some components → (∀ c ∈ components, IsParameter c) →
      IsParameter (.obj fields)

def IsDescriptor (v : Json) : Prop :=
  ∃ fields inputs, v = .obj fields ∧ listed? fields "inputs" = some inputs ∧
    ∀ p ∈ inputs, IsParameter p

theorem IsParameter.exists_shape {p : Json} (h : IsParameter p) : ∃ s, Shape.ofJson p = .ok s := by
  induction h with
  | elementary htype hword => exact ⟨_, Shape.ofJson_elementary htype hword⟩
  | @tuple fields suffix components htype hc _ ih =>
    obtain ⟨shapes, hs⟩ := exists_mapM_of_forall ih
    exact ⟨_, Shape.ofJson_tuple htype hc hs⟩

theorem IsParameter.exists_ofJson {p : Json} (h : IsParameter p) :
    ∃ q, Parameter.ofJson p = .ok q := by
  obtain ⟨s, hs⟩ := h.exists_shape
  have hname : ∃ name, p.textField "name" = .ok name := by
    cases h <;> exact ⟨_, textField_obj _ _⟩
  obtain ⟨name, hname⟩ := hname
  refine ⟨⟨name, s⟩, ?_⟩
  rw [Parameter.ofJson, hname, except_ok_bind, hs]
  rfl

theorem IsDescriptor.exists_ofJson {v : Json} (h : IsDescriptor v) :
    ∃ e, Entry.ofJson v = .ok e := by
  obtain ⟨fields, inputs, rfl, hl, hinputs⟩ := h
  obtain ⟨parameters, hparameters⟩ := exists_mapM_of_forall fun p hp => (hinputs p hp).exists_ofJson
  have hitems := itemsOrNone_of_listOf? hl
  unfold Entry.ofJson
  simp only [field_obj, textField_obj, except_ok_bind, hitems, hparameters]
  exact ⟨_, rfl⟩

theorem Entry.name_of_ofJson {v : Json} {e : Entry} (h : ofJson v = .ok e) :
    v.textField "name" = .ok e.name := by
  simp only [ofJson, except_bind_eq_ok, except_pure_eq_ok] at h
  obtain ⟨_, -, _, -, _, -, _, -, _, -, _, -, name, hname, rfl⟩ := h
  exact hname

end ContractBindings.Abi

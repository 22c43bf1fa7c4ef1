import ContractBindings.Proofs.Files.Changes
import ContractBindings.Proofs.Session.Parallel

/-!
# Disks that differ in one text

Two disks are twins if they have the same things at the same places, except
that where the one has a certain text, at some places, the other may have
another text. No operation can tell twins apart but by reading at such a
place, so twins stay twins, and an operation fails on both for one reason.
-/

namespace ContractBindings.Files.Disk

inductive Twin (places : Place → Prop) (text text' : List UInt8) : Place × Node → Place × Node → Prop
  | same (e : Place × Node) : Twin places text text' e e
  | differ {p : Place} (h : places p) : Twin places text text' (p, .file text) (p, .file text')

structure Twins (home : Place) (places : Place → Prop) (text text' : List UInt8) (d d' : Disk) :
    Prop where
  here : d.here = home
  here' : d'.here = home
  nodes : List.Forall₂ (Twin places text text') d.nodes d'.nodes

section
variable {home : Place} {places : Place → Prop} {text text' : List UInt8} {d d' : Disk}

theorem Twin.place {e e' : Place × Node} (h : Twin places text text' e e') : e'.1 = e.1 := by
  cases h <;> rfl

theorem twins_refl (d : Disk) : Twins d.here places text text' d d :=
  ⟨rfl, rfl, List.forall₂_same.mpr fun e _ => .same e⟩

def NodeTwin (text text' : List UInt8) (n n' : Node) : Prop :=
  n' = n ∨ (n = .file text ∧ n' = .file text')

theorem lookup_twin {l l' : List (Place × Node)} (h : List.Forall₂ (Twin places text text') l l')
    (p : Place) : l'.lookup p = l.lookup p ∨
      (places p ∧ l.lookup p = some (.file text) ∧ l'.lookup p = some (.file text')) := by
  induction h with
  | nil => exact .inl rfl
  | @cons e e' l l' he _ ih =>
    cases he with
    | same e =>
      obtain ⟨q, n⟩ := e
      by_cases hp : p = q
      · subst hp; simp
      · simpa [List.lookup_cons, beq_eq_false_iff_ne.mpr hp] using ih
    | @differ q hq =>
      by_cases hp : p = q
      · subst hp; simp [hq]
      · simpa [List.lookup_cons, beq_eq_false_iff_ne.mpr hp] using ih

variable (h : Twins home places text text' d d')
include h

theorem Twins.node?_cases (p : Place) : d'.node? p = d.node? p ∨
    (places p ∧ d.node? p = some (.file text) ∧ d'.node? p = some (.file text')) := by
  unfold node?
  by_cases hp : p = []
  · simp [hp]
  · simpa [hp] using lookup_twin h.nodes p

theorem Twins.node?_rel (p : Place) :
    Option.Rel (NodeTwin text text') (d.node? p) (d'.node? p) := by
  rcases h.node?_cases p with hn | ⟨-, hn, hn'⟩
  · rw [hn]
    cases d.node? p with
    | none => exact .none
    | some n => exact .some (.inl rfl)
  · rw [hn, hn']
    exact .some (.inr ⟨rfl, rfl⟩)

theorem Twins.follow (names : List String) : ∀ p, d'.follow p names = d.follow p names := by
  induction names with
  | nil => exact fun p => rfl
  | cons name names ih =>
    intro p
    rw [Disk.follow, Disk.follow]
    rcases h.node?_cases p with hn | ⟨-, hn, hn'⟩
    · simp only [hn, ih]
    · simp only [hn, hn']

theorem Twins.locate (path : String) : d'.locate path = d.locate path := by
  unfold Disk.locate
  simp only [h.follow, h.here, h.here']

theorem Twins.find (path : String) :
    Together (NodeTwin text text') (d.find path) (d'.find path) := by
  unfold Disk.find
  rw [h.locate]
  refine Together.bind (P := Eq) (together_refl (fun _ => rfl) _) fun p _ hp => ?_
  subst hp
  have hnode := h.node?_rel p
  generalize d.node? p = n at hnode ⊢
  generalize d'.node? p = n' at hnode ⊢
  cases hnode with
  | none => exact .error _
  | some hn => exact .ok hn

theorem Twins.isDirectory (path : String) : d'.isDirectory path = d.isDirectory path := by
  unfold Disk.isDirectory
  have hfind := h.find path
  generalize d.find path = o at hfind ⊢
  generalize d'.find path = o' at hfind ⊢
  cases hfind with
  | ok hn => rcases hn with rfl | ⟨rfl, rfl⟩ <;> rfl
  | error e => rfl

omit h in
theorem together_telling {α : Type} {Q : α → α → Prop} {work work' : Except Cause α}
    (h : Together Q work work') (path : String) :
    Together Q (telling path work) (telling path work') := by
  unfold telling
  split
  · exact .error _
  · exact h.mapError _

/-- What is read from twins is the same, or the one text and the other. -/
theorem Twins.read (path : String) :
    Together (fun x x' => x' = x ∨ (x = text ∧ x' = text')) (d.read path) (d'.read path) := by
  apply together_telling
  apply (h.find path).bind
  rintro n n' (rfl | ⟨rfl, rfl⟩)
  · exact together_refl (fun _ => .inl rfl) _
  · exact .ok (.inr ⟨rfl, rfl⟩)

theorem Twins.read_eq {path : String} (hp : ¬places (placeOf home path)) :
    d'.read path = d.read path := by
  have hfind : d'.find path = d.find path := by
    unfold Disk.find
    rw [h.locate]
    cases hl : d.locate path with
    | error e => rfl
    | ok p =>
      rw [except_ok_bind, except_ok_bind]
      rcases h.node?_cases p with hn | ⟨hplace, -⟩
      · rw [hn]
      · rw [locate_eq hl, h.here] at hplace
        exact absurd hplace hp
  unfold Disk.read
  rw [hfind]

/-! ## Changes of twins -/

theorem Twins.put {p : Place} {n n' : Node} (hn : Twin places text text' (p, n) (p, n')) :
    Twins home places text text' (d.put p n) (d'.put p n') := by
  refine ⟨h.here, h.here', List.rel_append (List.rel_filter ?_ h.nodes) (.cons hn .nil)⟩
  intro e e' he
  simp only [he.place]

theorem Twins.write {path : String} {bytes bytes' : List UInt8}
    (hb : Twin places text text' (placeOf home path, .file bytes) (placeOf home path, .file bytes')) :
    Together (Twins home places text text') (d.write path bytes) (d'.write path bytes') := by
  apply together_telling
  cases hp : d.locate path with
  | error e =>
    rw [h.locate, hp]
    exact .error e
  | ok p =>
    rw [h.locate, hp, except_ok_bind, except_ok_bind]
    have hplace := locate_eq hp
    rw [h.here] at hplace
    rw [← hplace] at hb
    have hput := h.put hb
    have hnode := h.node?_rel p
    generalize d.node? p = n at hnode ⊢
    generalize d'.node? p = n' at hnode ⊢
    cases hnode with
    | none => exact .ok hput
    | @some n n' hn =>
      rcases hn with rfl | ⟨rfl, rfl⟩
      · cases n' with
        | directory => exact .error _
        | file b => exact .ok hput
      · exact .ok hput

theorem Twins.makeDirectory (path : String) :
    Together (Twins home places text text') (d.makeDirectory path) (d'.makeDirectory path) := by
  apply together_telling
  rw [h.locate]
  refine Together.bind (P := Eq) (together_refl (fun _ => rfl) _) fun p _ hp => ?_
  subst hp
  have hnode := h.node?_rel p
  generalize d.node? p = n at hnode ⊢
  generalize d'.node? p = n' at hnode ⊢
  cases hnode with
  | none => exact .ok (h.put (.same _))
  | some hn => exact .error _

theorem Twins.ensureDirectory (path : String) :
    Together (Twins home places text text') (d.ensureDirectory path) (d'.ensureDirectory path) := by
  unfold Disk.ensureDirectory
  rw [h.isDirectory]
  have hmake := h.makeDirectory path
  generalize d.makeDirectory path = o at hmake ⊢
  generalize d'.makeDirectory path = o' at hmake ⊢
  cases hmake with
  | ok hd => exact .ok hd
  | error f =>
    cases f with
    | nullCharacter =>
      dsimp only
      split
      · exact .ok h
      · exact .error _
    | refused cause p t =>
      cases cause with
      | notFound => exact .error _
      | _ =>
        dsimp only
        split
        · exact .ok h
        · exact .error _

theorem Twins.attempt {o o' : Except Failure Disk} (ho : Together (Twins home places text text') o o') :
    Twins home places text text' (d.attempt o).1 (d'.attempt o').1 ∧
      (d'.attempt o').2 = (d.attempt o).2 := by
  cases ho with
  | ok hd => exact ⟨hd, rfl⟩
  | error f => exact ⟨h, rfl⟩

omit h in
theorem Twins.ensureAbove (root : String) (components : List String) :
    ∀ {d d' : Disk}, Twins home places text text' d d' →
      Twins home places text text' (Disk.ensureAbove root components d).1
          (Disk.ensureAbove root components d').1 ∧
        (Disk.ensureAbove root components d').2 = (Disk.ensureAbove root components d).2 := by
  induction components with
  | nil =>
    intro d d' h
    unfold Disk.ensureAbove
    exact h.attempt (h.ensureDirectory _)
  | cons c above ih =>
    intro d d' h
    unfold Disk.ensureAbove
    dsimp only
    generalize Path.toString ⟨root, (c :: above).reverse⟩ = path
    have hone := h.ensureDirectory path
    generalize d.ensureDirectory path = o at hone ⊢
    generalize d'.ensureDirectory path = o' at hone ⊢
    cases hone with
    | ok hd => exact ⟨hd, rfl⟩
    | error f =>
      obtain ⟨habove, houtcome⟩ := ih h
      split
      · next hcs hf =>
        cases hf
        cases hcs
        generalize Disk.ensureAbove root above d = a at habove houtcome ⊢
        generalize Disk.ensureAbove root above d' = a' at habove houtcome ⊢
        obtain ⟨e, o⟩ := a
        obtain ⟨e', o'⟩ := a'
        cases houtcome
        cases o with
        | ok _ => exact habove.attempt (habove.ensureDirectory _)
        | error f => exact ⟨habove, rfl⟩
      · exact h.attempt (.error f)

theorem Twins.ensureDirectories (p : Path) :
    Twins home places text text' (d.ensureDirectories p).1 (d'.ensureDirectories p).1 ∧
      (d'.ensureDirectories p).2 = (d.ensureDirectories p).2 :=
  Twins.ensureAbove p.root p.components.reverse h

theorem Twins.below (p : Place) : (d'.below p).isEmpty = (d.below p).isEmpty := by
  have hkept := List.rel_filter (R := Twin places text text')
    (p := fun e => isWithin p e.1 && p != e.1) (q := fun e => isWithin p e.1 && p != e.1)
    (fun e e' he => by simp only [he.place]) h.nodes
  have hlen := hkept.length_eq
  rw [Bool.eq_iff_iff, List.isEmpty_iff_length_eq_zero, List.isEmpty_iff_length_eq_zero, Disk.below,
    Disk.below, List.length_map, List.length_map, hlen]

theorem Twins.conflict? (t : Place) {n n' m m' : Node} (hn : NodeTwin text text' n n')
    (hm : NodeTwin text text' m m') :
    d'.conflict? t n' (some m') = d.conflict? t n (some m) := by
  rcases hn with rfl | ⟨rfl, rfl⟩
  · rcases hm with rfl | ⟨rfl, rfl⟩
    · cases n' <;> cases m' <;> simp [Disk.conflict?, h.below]
    · cases n' <;> simp [Disk.conflict?]
  · rcases hm with rfl | ⟨rfl, rfl⟩
    · cases m' <;> simp [Disk.conflict?]
    · simp [Disk.conflict?]

omit h in
theorem moved_twins {s t : Place} (hplaces : ∀ r, places (s ++ r) → places (t ++ r))
    {l l' : List (Place × Node)} (h : List.Forall₂ (Twin places text text') l l') :
    List.Forall₂ (Twin places text text')
      ((l.filter (isWithin s ·.1)).map fun (q, n) => (t ++ q.drop s.length, n))
      ((l'.filter (isWithin s ·.1)).map fun (q, n) => (t ++ q.drop s.length, n)) := by
  induction h with
  | nil => exact .nil
  | @cons e e' l l' he _ ih =>
    by_cases hw : isWithin s e.1 = true
    · rw [List.filter_cons, List.filter_cons, he.place, if_pos hw, if_pos hw]
      refine .cons ?_ ih
      cases he with
      | same e => exact .same _
      | differ hp =>
        obtain ⟨r, rfl⟩ := List.isPrefixOf_iff_prefix.mp hw
        exact .differ (by simpa using hplaces r hp)
    · rw [List.filter_cons, List.filter_cons, he.place, if_neg hw, if_neg hw]
      exact ih

/-- Twins stay twins if what comes from a place of theirs comes to another one. -/
theorem Twins.relocate {s t : Place}
    (hplaces : ∀ r, places (s ++ r) → places (t ++ r)) :
    Twins home places text text' (d.relocate s t) (d'.relocate s t) := by
  refine ⟨h.here, h.here', List.rel_append ?_ (moved_twins hplaces h.nodes)⟩
  exact List.rel_filter (fun e e' he => by simp only [he.place]) h.nodes

theorem Twins.move {source target : String}
    (hplaces : ∀ r, places (placeOf home source ++ r) → places (placeOf home target ++ r)) :
    Together (Twins home places text text') (d.move source target) (d'.move source target) := by
  unfold Disk.move
  split
  · exact .error _
  · apply Together.mapError
    rw [h.locate, h.locate]
    cases hs : d.locate source with
    | error e => exact .error e
    | ok s =>
      rw [except_ok_bind, except_ok_bind]
      have hsplace := locate_eq hs
      have hsnode := h.node?_rel s
      generalize d.node? s = n at hsnode ⊢
      generalize d'.node? s = n' at hsnode ⊢
      cases hsnode with
      | none => exact .error _
      | some hn =>
        cases ht : d.locate target with
        | error e => exact .error e
        | ok t =>
          dsimp only
          rw [except_ok_bind, except_ok_bind]
          have htplace := locate_eq ht
          split
          · exact .ok h
          · have htnode := h.node?_rel t
            have hrelocate : Twins home places text text' (d.relocate s t) (d'.relocate s t) := by
              apply h.relocate
              rw [hsplace, htplace, h.here]
              exact hplaces
            generalize d.node? t = m at htnode ⊢
            generalize d'.node? t = m' at htnode ⊢
            cases htnode with
            | none => exact .ok hrelocate
            | some hm =>
              rw [h.conflict? t hn hm]
              split
              · exact .error _
              · exact .ok hrelocate

end

end ContractBindings.Files.Disk

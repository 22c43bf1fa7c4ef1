import ContractBindings.Keyed
import Mathlib.Data.List.Induction
import Mathlib.Data.List.Nodup

/-!
# Keyed lists with distinct keys

A keyed list that is built by stores has distinct keys, and each of its
entries is then found under its key. Stores of new keys put the entries one
behind the other.
-/

namespace ContractBindings.Keyed

variable {α κ : Type} {m m' : Keyed α κ} {k : κ}

@[simp] theorem keys_nil : keys ([] : Keyed α κ) = [] := rfl

@[simp] theorem keys_cons (p : κ × α) (m : Keyed α κ) : keys (p :: m) = p.1 :: m.keys := rfl

@[simp] theorem keys_append (m m' : Keyed α κ) : keys (m ++ m') = m.keys ++ m'.keys :=
  List.map_append

theorem nodup_keys_filter (h : m.keys.Nodup) (p : κ × α → Bool) : (keys (m.filter p)).Nodup :=
  h.sublist (List.filter_sublist.map Prod.fst)

variable [DecidableEq κ]

theorem nodup_keys_insert (h : m.keys.Nodup) (k : κ) (v : α) : (insert m k v).keys.Nodup := by
  rw [keys_insert]
  split
  · exact h
  · next hk =>
    refine List.nodup_append.mpr ⟨h, List.nodup_singleton k, ?_⟩
    intro a ha b hb hab
    rw [List.mem_singleton] at hb
    subst hb; subst hab; exact hk ha

/-! ## Entries and look-up -/

theorem get?_of_mem {v : α} : ∀ {m : Keyed α κ}, m.keys.Nodup → (k, v) ∈ m → m.get? k = some v
  | (l, w) :: m, hn, hm => by
    rw [keys_cons, List.nodup_cons] at hn
    rcases List.mem_cons.mp hm with h | h
    · cases h; rw [get?, if_pos rfl]
    · have hne : l ≠ k := by
        rintro rfl
        exact hn.1 (List.mem_map.mpr ⟨(l, v), h, rfl⟩)
      rw [get?, if_neg hne]
      exact get?_of_mem hn.2 h

theorem mem_of_get? {v : α} : ∀ {m : Keyed α κ}, m.get? k = some v → (k, v) ∈ m
  | (l, w) :: m, h => by
    rw [get?] at h
    split at h
    · next hl =>
      cases h
      exact hl ▸ List.mem_cons_self
    · exact List.mem_cons_of_mem (l, w) (mem_of_get? h)

theorem mem_keys_of_get? {v : α} {m : Keyed α κ} (h : m.get? k = some v) : k ∈ m.keys :=
  List.mem_map_of_mem (mem_of_get? h)

theorem get?_eq_none (h : k ∉ m.keys) : m.get? k = none := by
  apply Option.eq_none_iff_forall_ne_some.mpr
  exact fun v hv => h (mem_keys_of_get? hv)

theorem get?_append_of_not_mem (m' : Keyed α κ) :
    ∀ {m : Keyed α κ}, k ∉ m.keys → get? (m ++ m') k = m'.get? k
  | [], _ => rfl
  | (l, w) :: m, h => by
    rw [keys_cons, List.mem_cons, not_or] at h
    rw [List.cons_append, get?, if_neg (Ne.symm h.1)]
    exact get?_append_of_not_mem m' h.2

theorem insert_append_of_not_mem (m' : Keyed α κ) (v : α) :
    ∀ {m : Keyed α κ}, k ∉ m.keys → insert (m ++ m') k v = m ++ insert m' k v
  | [], _ => rfl
  | (l, w) :: m, h => by
    rw [keys_cons, List.mem_cons, not_or] at h
    rw [List.cons_append, insert, if_neg (Ne.symm h.1), insert_append_of_not_mem m' v h.2,
      List.cons_append]

theorem foldl_insert_of_nodup : ∀ {ps : List (κ × α)} {m : Keyed α κ},
    (m.keys ++ ps.map Prod.fst).Nodup → ps.foldl (fun m p => insert m p.1 p.2) m = m ++ ps
  | [], m, _ => (List.append_nil m).symm
  | (k, v) :: ps, m, h => by
    have hk : k ∉ m.keys := by
      intro hm
      exact List.disjoint_of_nodup_append h hm (by simp)
    have hstore : insert m k v = m ++ [(k, v)] := by
      conv_lhs => rw [← List.append_nil m]
      rw [insert_append_of_not_mem [] v hk]
      rfl
    rw [List.foldl_cons, hstore, foldl_insert_of_nodup (by simpa using h), List.append_assoc,
      List.singleton_append]

/-- Of items that are listed for the entries of a keyed list and carry their keys, those with one key
are the ones of its entry. -/
theorem filter_flatMap {β : Type} {k : β → κ} {g : κ × α → List β}
    (hg : ∀ q, ∀ x ∈ g q, k x = q.1) : ∀ {m : Keyed α κ} {p : κ × α}, m.keys.Nodup → p ∈ m →
      (m.flatMap g).filter (k · == p.1) = g p
  | [], _, _, hp => by cases hp
  | q :: m, p, hn, hp => by
    rw [keys_cons, List.nodup_cons] at hn
    rw [List.flatMap_cons, List.filter_append]
    rcases List.mem_cons.mp hp with rfl | hp
    · have hself : (g p).filter (k · == p.1) = g p :=
        List.filter_eq_self.mpr fun x hx => beq_iff_eq.mpr (hg p x hx)
      have hrest : (m.flatMap g).filter (k · == p.1) = [] := by
        refine List.filter_eq_nil_iff.mpr fun x hx hkey => ?_
        obtain ⟨q, hq, hx⟩ := List.mem_flatMap.mp hx
        rw [beq_iff_eq, hg q x hx] at hkey
        exact hn.1 (hkey ▸ List.mem_map_of_mem hq)
      rw [hself, hrest, List.append_nil]
    · have hother : (g q).filter (k · == p.1) = [] := by
        refine List.filter_eq_nil_iff.mpr fun x hx hkey => ?_
        rw [beq_iff_eq, hg q x hx] at hkey
        exact hn.1 (hkey ▸ List.mem_map_of_mem hp)
      rw [hother, List.nil_append, filter_flatMap hg hn.2 hp]

/-! ## Leaving out a key -/

def without (m : Keyed α κ) (k : κ) : Keyed α κ := m.filter (·.1 != k)

theorem without_cons_self (k : κ) (v : α) (m : Keyed α κ) :
    without ((k, v) :: m) k = without m k := by
  simp [without]

theorem without_cons_of_ne {l : κ} (h : l ≠ k) (v : α) (m : Keyed α κ) :
    without ((l, v) :: m) k = (l, v) :: without m k := by
  simp [without, h]

theorem without_of_not_mem (h : k ∉ m.keys) : without m k = m := by
  apply List.filter_eq_self.mpr
  intro p hp
  rw [bne_iff_ne]
  intro he
  subst he
  exact h (List.mem_map_of_mem hp)

theorem without_insert_self (m : Keyed α κ) (k : κ) (v : α) :
    without (insert m k v) k = without m k := by
  induction m with
  | nil => rw [insert, without_cons_self]
  | cons p m ih =>
    obtain ⟨l, w⟩ := p
    by_cases hl : l = k
    · subst hl
      rw [insert, if_pos rfl, without_cons_self, without_cons_self]
    · rw [insert, if_neg hl, without_cons_of_ne hl, without_cons_of_ne hl, ih]

theorem without_insert_of_ne {l : κ} (h : l ≠ k) (m : Keyed α κ) (v : α) :
    without (insert m l v) k = insert (without m k) l v := by
  induction m with
  | nil => simp [insert, without, h]
  | cons p m ih =>
    obtain ⟨j, w⟩ := p
    by_cases hl : j = l
    · subst hl
      rw [insert, if_pos rfl, without_cons_of_ne h, without_cons_of_ne h, insert, if_pos rfl]
    · rw [insert, if_neg hl]
      by_cases hj : j = k
      · subst hj
        rw [without_cons_self, without_cons_self, ih]
      · rw [without_cons_of_ne hj, without_cons_of_ne hj, insert, if_neg hl, ih]

theorem get?_without_of_ne {l : κ} (h : l ≠ k) (m : Keyed α κ) :
    (without m k).get? l = m.get? l := by
  induction m with
  | nil => rfl
  | cons p m ih =>
    obtain ⟨j, w⟩ := p
    by_cases hj : j = k
    · subst hj
      rw [without_cons_self, ih, get?, if_neg (Ne.symm h)]
    · rw [without_cons_of_ne hj, get?, get?, ih]

theorem mem_insert {p : κ × α} {v : α} (h : p ∈ insert m k v) : p = (k, v) ∨ p ∈ m := by
  induction m with
  | nil => exact .inl (List.mem_singleton.mp h)
  | cons q m ih =>
    obtain ⟨l, w⟩ := q
    rw [insert] at h
    split at h
    · exact (List.mem_cons.mp h).imp id (List.mem_cons_of_mem _)
    · rcases List.mem_cons.mp h with he | hm
      · exact .inr (he ▸ List.mem_cons_self)
      · exact (ih hm).imp id (List.mem_cons_of_mem _)

/-! ## Stores one after the other -/

/-- Pairs with distinct keys are a keyed list already. -/
theorem ofPairs_of_nodup {ps : List (κ × α)} (h : (ps.map Prod.fst).Nodup) : ofPairs ps = ps :=
  foldl_insert_of_nodup h

theorem ofPairs_concat (ps : List (κ × α)) (p : κ × α) :
    ofPairs (ps ++ [p]) = insert (ofPairs ps) p.1 p.2 :=
  List.foldl_concat ..

theorem mem_of_mem_ofPairs {p : κ × α} {ps : List (κ × α)} (h : p ∈ ofPairs ps) :
    p ∈ ps := by
  induction ps using List.reverseRecOn with
  | nil => cases h
  | append_singleton ps q ih =>
    rw [ofPairs_concat] at h
    rcases mem_insert h with rfl | h
    · exact List.mem_append_right ps List.mem_cons_self
    · exact List.mem_append_left [q] (ih h)

/-- Of several stores under one key the last one counts. -/
theorem get?_ofPairs [BEq κ] [LawfulBEq κ] (ps : List (κ × α)) (k : κ) :
    (ofPairs ps).get? k = ps.reverse.lookup k := by
  induction ps using List.reverseRecOn with
  | nil => rfl
  | append_singleton ps p ih =>
    rw [ofPairs_concat, List.reverse_concat]
    obtain ⟨l, v⟩ := p
    by_cases hl : k = l
    · subst hl
      rw [get?_insert_self, List.lookup_cons_self]
    · rw [get?_insert_of_ne (Ne.symm hl), ih, List.lookup_cons, beq_false_of_ne hl]

end ContractBindings.Keyed

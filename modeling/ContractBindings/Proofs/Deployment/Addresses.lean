import ContractBindings.Proofs.Deployment.Sequence
import ContractBindings.Proofs.Keyed

/-!
# Addresses

Only a receipt that confirms a deployment changes an artifact, and it changes
its address only. So after some attempts the address of an artifact is the one
in the last such receipt.
-/

namespace ContractBindings

/-! ## Receipts -/

def Exchange.receipt? : Exchange → Option Receipt
  | ⟨.wait _ _, .ok receipt⟩ => some receipt
  | _ => none

def receipts (es : List Exchange) : List Receipt := es.filterMap Exchange.receipt?

theorem receipts_append (es es' : List Exchange) : receipts (es ++ es') = receipts es ++ receipts es' :=
  List.filterMap_append

theorem receipts_of_not_wait {es : List Exchange} (h : ∀ x ∈ es, x.call.isWait = false) :
    receipts es = [] := by
  rw [receipts, List.filterMap_eq_nil_iff]
  rintro ⟨c, o⟩ hx
  have hc := h _ hx
  cases c <;> first | rfl | cases hc

def confirmed (es : List Exchange) : List Json :=
  ((receipts es).filter fun receipt => !receipt.isReverted).map (·.address)

theorem confirmed_append (es es' : List Exchange) :
    confirmed (es ++ es') = confirmed es ++ confirmed es' := by
  unfold confirmed
  rw [receipts_append, List.filter_append, List.map_append]

theorem confirmed_of_not_wait {es : List Exchange} (h : ∀ x ∈ es, x.call.isWait = false) :
    confirmed es = [] := by
  rw [confirmed, receipts_of_not_wait h]
  rfl

def lastAddress? (attempts : List Attempt) (key : String) : Option Json :=
  ((attempts.filter (·.task.key = key)).flatMap fun a => confirmed a.calls).getLast?

theorem lastAddress?_append (xs ys : List Attempt) (key : String) :
    lastAddress? (xs ++ ys) key = (lastAddress? ys key).or (lastAddress? xs key) := by
  unfold lastAddress?
  rw [List.filter_append, List.flatMap_append, List.getLast?_append]

theorem lastAddress?_of_unconfirmed {attempts : List Attempt} {key : String}
    (h : ∀ a ∈ attempts, a.task.key = key → confirmed a.calls = []) :
    lastAddress? attempts key = none := by
  unfold lastAddress?
  rw [List.getLast?_eq_none_iff, List.flatMap_eq_nil_iff]
  intro a ha
  obtain ⟨hm, hk⟩ := List.mem_filter.mp ha
  exact h a hm (by simpa using hk)

/-- A deployment that succeeds awaits one receipt that is not reverted, and one that fails awaits
none. -/
theorem Deployer.Deploys.confirmed {d : Deployer} {task : Task} {found : Option Artifact}
    {es : List Exchange} {lines : List LogLine} {r : Except Error Deployed}
    (h : Deploys d task found es lines r) :
    confirmed es = match r with
      | .ok x => [x.address]
      | .error _ => [] := by
  have hsends : ∀ {abi : Json} {code : String} {hash : Wire} {es : List Exchange} (o),
      SendsFor abi code task.args hash es →
        ContractBindings.confirmed (es ++ [⟨.wait hash d.receiptTimeout, o⟩]) =
          ContractBindings.confirmed [⟨.wait hash d.receiptTimeout, o⟩] := by
    intro abi code hash es o hs
    obtain ⟨q, x, rfl, hq, hx⟩ := hs.split
    have hwait : ∀ y ∈ q ++ [x], y.call.isWait = false := by
      intro y hy
      rcases List.mem_append.mp hy with hy | hy
      · exact (hq y hy).2.2
      · rw [List.mem_singleton] at hy
        subst hy
        exact Call.not_isWait_of_isSubmission (Exchange.isAnswered_of_submitted hx).2
    rw [confirmed_append, confirmed_of_not_wait hwait, List.nil_append]
  cases h with
  | unsubmitted h => exact confirmed_of_not_wait h.not_wait
  | unconfirmed _ _ h e => rw [hsends _ h]; rfl
  | reverted _ _ h hr => rw [hsends _ h]; simp [ContractBindings.confirmed, receipts, Exchange.receipt?, hr]
  | deployed _ _ h hr => rw [hsends _ h]; simp [ContractBindings.confirmed, receipts, Exchange.receipt?, hr]

/-! ## Artifacts with new addresses -/

def Artifact.at (a : Artifact) (address : Option Json) : Artifact :=
  { a with address := address.getD a.address }

/-- Artifacts that differ from others in their addresses only, which are those in the last receipts. -/
structure Readdressed (attempts : List Attempt) (as as' : Artifacts) : Prop where
  keys : as'.keys = as.keys
  get : ∀ key, as'.get? key = (as.get? key).map (·.at (lastAddress? attempts key))

theorem Readdressed.nil (as : Artifacts) : Readdressed [] as as := by
  refine ⟨rfl, fun key => ?_⟩
  cases as.get? key <;> rfl

theorem Readdressed.append {xs ys : List Attempt} {as as' as'' : Artifacts}
    (h : Readdressed xs as as') (h' : Readdressed ys as' as'') : Readdressed (xs ++ ys) as as'' := by
  refine ⟨h'.keys.trans h.keys, fun key => ?_⟩
  rw [h'.get, h.get, lastAddress?_append]
  cases as.get? key with
  | none => rfl
  | some a => cases lastAddress? ys key <;> rfl

theorem get?_withAddress (as : Artifacts) (key : String) (address : Json) (k : String) :
    (as.withAddress key address).get? k =
      (as.get? k).map (·.at (if key = k then some address else none)) := by
  unfold Artifacts.withAddress
  cases hf : as.get? key with
  | none =>
    by_cases hk : key = k
    · subst hk
      simp [hf]
    · simp only [if_neg hk]
      cases as.get? k <;> rfl
  | some a =>
    by_cases hk : key = k
    · subst hk
      simp [hf, Keyed.get?_insert_self, Artifact.at]
    · dsimp only
      rw [Keyed.get?_insert_of_ne hk, if_neg hk]
      cases as.get? k <;> rfl

theorem keys_withAddress (as : Artifacts) (key : String) (address : Json) :
    (as.withAddress key address).keys = as.keys := by
  unfold Artifacts.withAddress
  cases hf : as.get? key with
  | none => rfl
  | some a => exact (Keyed.keys_insert as key _).trans (if_pos (Keyed.mem_keys_of_get? hf))

theorem readdressed_deploy {d : Deployer} {task : Task} {found : Option Artifact} {es : List Exchange}
    {lines lines' : List LogLine} {r : Except Error Deployed}
    (h : Deployer.Deploys d task found es lines r) (as : Artifacts) :
    Readdressed [⟨task, es, lines', r⟩] as (as.afterDeploy task.key r) := by
  have hlast : ∀ key, lastAddress? [⟨task, es, lines', r⟩] key =
      if task.key = key then (confirmed es).getLast? else none := by
    intro key
    unfold lastAddress?
    by_cases hk : task.key = key <;> simp [hk]
  have hconfirmed := h.confirmed
  cases r with
  | error e =>
    refine ⟨rfl, fun key => ?_⟩
    have hnone : lastAddress? [⟨task, es, lines', .error e⟩] key = none := by
      rw [hlast, hconfirmed]
      simp
    rw [hnone]
    show as.get? key = _
    cases as.get? key <;> rfl
  | ok x =>
    refine ⟨keys_withAddress as task.key x.address, fun key => ?_⟩
    rw [hlast, hconfirmed]
    exact get?_withAddress as task.key x.address key

theorem Deployer.Attempts.readdressed {d : Deployer} {as as' : Artifacts} {tasks : List Task}
    {attempts : List Attempt} {r : Except Error (List Deployed)}
    (h : Attempts d as tasks attempts r as') : Readdressed attempts as as' := by
  induction h with
  | nil as => exact .nil as
  | failed h tasks => exact readdressed_deploy h _
  | next h _ ih => exact (readdressed_deploy h _).append ih

theorem Deployer.Attempts.confirmed {d : Deployer} {as as' : Artifacts} {tasks : List Task}
    {attempts : List Attempt} {r : Except Error (List Deployed)}
    (h : Attempts d as tasks attempts r as') : ∀ a ∈ attempts,
      ContractBindings.confirmed a.calls = match a.outcome with
        | .ok x => [x.address]
        | .error _ => [] := by
  induction h with
  | nil as => exact fun a ha => by cases ha
  | failed h tasks =>
    intro a ha
    rw [List.mem_singleton] at ha
    subst ha
    exact h.confirmed
  | next h _ ih =>
    intro a ha
    rcases List.mem_cons.mp ha with rfl | ha
    · exact h.confirmed
    · exact ih a ha

end ContractBindings

import ContractBindings.Deployment
import ContractBindings.Proofs.Session.Runs

/-!
# Attempts to deploy

What one deployment can do, said once: it stops before a transaction is sent,
or it sends one and awaits the receipt of just that one. `Deploys` has one
case for each way to end, with the calls and the log lines of that way, and
`runs_deploy` shows that there is no other one.
-/

namespace ContractBindings

/-! ## Kinds of calls -/

namespace Call

def isSubmission : Call → Bool
  | sendRaw _ => true
  | transact _ => true
  | _ => false

def isWait : Call → Bool
  | wait .. => true
  | _ => false

/-- Whether a call only prepares a transaction: it looks something up, builds or signs. -/
def isPreparation : Call → Bool
  | keyAccount _ => true
  | checksumAddress _ => true
  | accounts => true
  | toWei _ => true
  | transactionCount _ => true
  | build _ => true
  | sign .. => true
  | _ => false

end Call

namespace Exchange

def isAnswered (x : Exchange) : Bool :=
  match x.outcome with
  | .ok _ => true
  | .error _ => false

def submitted? : Exchange → Option Wire
  | ⟨.sendRaw _, .ok hash⟩ => some hash
  | ⟨.transact _, .ok hash⟩ => some hash
  | _ => none

theorem isAnswered_of_submitted {x : Exchange} {hash : Wire} (h : x.submitted? = some hash) :
    x.isAnswered = true ∧ x.call.isSubmission = true := by
  unfold submitted? at h
  split at h
  · exact ⟨rfl, rfl⟩
  · exact ⟨rfl, rfl⟩
  · cases h

end Exchange

def Prepares (es : List Exchange) : Prop := ∀ x ∈ es, x.isAnswered = true ∧ x.call.isPreparation = true

def Quiet (es : List Exchange) : Prop :=
  ∀ x ∈ es, x.isAnswered = true ∧ x.call.isSubmission = false ∧ x.call.isWait = false

theorem Prepares.quiet {es : List Exchange} (h : Prepares es) : Quiet es := by
  intro x hx
  obtain ⟨ha, hp⟩ := h x hx
  refine ⟨ha, ?_⟩
  obtain ⟨c, o⟩ := x
  cases c <;> first | exact ⟨rfl, rfl⟩ | cases hp

theorem Prepares.nil : Prepares [] := by
  intro x hx; cases hx

theorem Prepares.append {es es' : List Exchange} (h : Prepares es) (h' : Prepares es') :
    Prepares (es ++ es') := by
  intro x hx
  rcases List.mem_append.mp hx with hx | hx
  · exact h x hx
  · exact h' x hx

theorem Quiet.append {es es' : List Exchange} (h : Quiet es) (h' : Quiet es') : Quiet (es ++ es') := by
  intro x hx
  rcases List.mem_append.mp hx with hx | hx
  · exact h x hx
  · exact h' x hx

/-- The calls of work that fails with an error before a transaction is sent: the last one may be the
one that failed, and the sending itself may be. -/
inductive Unsubmitted : List Exchange → Error → Prop
  | stopped (e : Error) : Unsubmitted [] e
  | refused (c : Call) (e : Error) (hc : c.isWait = false) : Unsubmitted [⟨c, .error e⟩] e
  | next {x : Exchange} {es : List Exchange} {e : Error} (ha : x.isAnswered = true)
      (hs : x.call.isSubmission = false) (hw : x.call.isWait = false) (h : Unsubmitted es e) :
      Unsubmitted (x :: es) e

theorem Unsubmitted.after_quiet {es' : List Exchange} {e : Error} (h : Unsubmitted es' e) :
    ∀ {es : List Exchange}, Quiet es → Unsubmitted (es ++ es') e
  | [], _ => h
  | x :: es, hq => by
    obtain ⟨ha, hs, hw⟩ := hq x List.mem_cons_self
    exact .next ha hs hw (h.after_quiet fun y hy => hq y (List.mem_cons_of_mem _ hy))

/-! ## Work that makes calls -/

/-- Work that only makes calls: those of a success satisfy a condition, and those of a failure end
before a transaction is sent. -/
def Traces {α : Type} (work : Session α) (Q : α → List Exchange → Prop) : Prop :=
  ∀ (s t : State) (r : Except Error α), Runs work s r t →
    (∃ a es, r = .ok a ∧ t = s.after es ∧ Q a es) ∨
      ∃ e es, r = .error e ∧ t = s.after es ∧ Unsubmitted es e

section
variable {α β : Type} {chain : Chain}

theorem traces_pure {Q : α → List Exchange → Prop} {a : α} (h : Q a []) : Traces (pure a) Q := by
  intro s t r hr
  obtain ⟨rfl, rfl⟩ := runs_pure.mp hr
  exact Or.inl ⟨a, [], rfl, by simp, h⟩

theorem traces_throw {Q : α → List Exchange → Prop} (e : Error) : Traces (throw e) Q := by
  intro s t r hr
  obtain ⟨rfl, rfl⟩ := runs_throw.mp hr
  exact Or.inr ⟨e, [], rfl, by simp, .stopped e⟩

theorem traces_ask {c : Call} {Q : c.Reply → List Exchange → Prop} (hc : c.isWait = false)
    (h : ∀ a, Q a [⟨c, .ok a⟩]) : Traces (Session.ask chain c) Q := by
  intro s t r hr
  obtain ⟨ho, rfl⟩ := runs_ask.mp hr
  rw [← ho]
  cases r with
  | ok a => exact Or.inl ⟨a, _, rfl, rfl, h a⟩
  | error e => exact Or.inr ⟨e, _, rfl, rfl, .refused c e hc⟩

theorem traces_bind {work : Session α} {f : α → Session β} {P : α → List Exchange → Prop}
    {Q : β → List Exchange → Prop} (hw : Traces work P) (hq : ∀ a es, P a es → Quiet es)
    (hf : ∀ a es, P a es → Traces (f a) fun b es' => Q b (es ++ es')) : Traces (work >>= f) Q := by
  intro s t r hr
  rcases runs_bind.mp hr with ⟨e, h, rfl⟩ | ⟨a, u, h, h'⟩
  · rcases hw _ _ _ h with ⟨a, es, he, -⟩ | ⟨e', es, he, ht, hu⟩
    · cases he
    · cases he; exact Or.inr ⟨e, es, rfl, ht, hu⟩
  · rcases hw _ _ _ h with ⟨a', es, ha, rfl, hp⟩ | ⟨e', es, he, -⟩
    · cases ha
      rcases hf a es hp _ _ _ h' with ⟨b, es', rfl, rfl, hb⟩ | ⟨e, es', rfl, rfl, hu⟩
      · exact Or.inl ⟨b, es ++ es', rfl, by simp, hb⟩
      · exact Or.inr ⟨e, es ++ es', rfl, by simp, hu.after_quiet (hq a es hp)⟩
    · cases he

theorem Traces.imp {work : Session α} {P Q : α → List Exchange → Prop} (hw : Traces work P)
    (h : ∀ a es, P a es → Q a es) : Traces work Q := by
  intro s t r hr
  rcases hw _ _ _ hr with ⟨a, es, hr, ht, hp⟩ | hf
  · exact Or.inl ⟨a, es, hr, ht, h a es hp⟩
  · exact Or.inr hf

end

/-! ## The stages of a deployment -/

namespace Deployer

variable {d : Deployer} {chain : Chain}

theorem traces_ask_prepares {c : Call} (hc : c.isPreparation = true) :
    Traces (Session.ask chain c) fun _ es => Prepares es := by
  have hp : ∀ a : c.Reply, Prepares [⟨c, .ok a⟩] := by
    intro a x hx
    rw [List.mem_singleton] at hx
    subst hx; exact ⟨rfl, hc⟩
  refine traces_ask ?_ hp
  cases c <;> first | rfl | cases hc

theorem traces_prepare_bind {α : Type} {c : Call} {f : c.Reply → Session α}
    {Q : α → List Exchange → Prop} (hc : c.isPreparation = true)
    (hQ : ∀ {a es r}, Prepares a → Q r es → Q r (a ++ es)) (hf : ∀ a, Traces (f a) Q) :
    Traces (Session.ask chain c >>= f) Q :=
  traces_bind (traces_ask_prepares hc) (fun _ _ h => h.quiet) fun a _ h => (hf a).imp fun _ _ => hQ h

theorem traces_sender : Traces (d.sender chain) fun _ es => Prepares es := by
  unfold sender
  split
  · exact traces_ask_prepares rfl
  · exact traces_ask_prepares rfl
  · apply traces_prepare_bind rfl Prepares.append
    intro accounts
    split
    · exact traces_throw _
    · exact traces_pure Prepares.nil

theorem traces_params (sender : String) :
    Traces (d.params chain sender) fun _ es => Prepares es := by
  unfold params
  dsimp only
  split
  · rw [pure_bind]
    exact traces_pure Prepares.nil
  · rw [bind_map_left]
    exact traces_prepare_bind rfl Prepares.append fun price => traces_pure Prepares.nil

def Sends (hash : Wire) (es : List Exchange) : Prop :=
  ∃ b x, es = b ++ [x] ∧ Prepares b ∧ x.submitted? = some hash

theorem Sends.prepend {a es : List Exchange} {hash : Wire} (ha : Prepares a) (h : Sends hash es) :
    Sends hash (a ++ es) := by
  obtain ⟨b, x, rfl, hb, hx⟩ := h
  exact ⟨a ++ b, x, by simp, ha.append hb, hx⟩

def Submits (args : List (Json CodePoints)) (hash : Wire) (es : List Exchange) : Prop :=
  ∃ a es', es = a ++ ⟨.construct args, .ok ()⟩ :: es' ∧ Prepares a ∧ Sends hash es'

theorem Submits.prepend {a es : List Exchange} {args : List (Json CodePoints)} {hash : Wire} (ha : Prepares a)
    (h : Submits args hash es) : Submits args hash (a ++ es) := by
  obtain ⟨b, es', rfl, hb, hs⟩ := h
  exact ⟨a ++ b, es', by simp, ha.append hb, hs⟩

theorem traces_construct_bind {args : List (Json CodePoints)} {work : Session Wire} (hw : Traces work Sends) :
    Traces (Session.ask chain (.construct args) >>= fun _ => work) (Submits args) := by
  refine traces_bind (P := fun _ es => es = [⟨.construct args, .ok ()⟩])
    (traces_ask rfl fun _ => rfl) ?_ ?_
  · rintro _ es rfl x hx
    rw [List.mem_singleton] at hx
    subst hx; exact ⟨rfl, rfl, rfl⟩
  · rintro _ es rfl
    exact hw.imp fun _ es' hs => ⟨[], es', rfl, Prepares.nil, hs⟩

theorem traces_submit (p : TransactionParams) (args : List (Json CodePoints)) :
    Traces (d.submit chain p args) (Submits args) := by
  unfold submit
  split
  · refine traces_prepare_bind rfl Submits.prepend fun nonce => traces_construct_bind ?_
    apply traces_prepare_bind rfl Sends.prepend
    intro transaction
    apply traces_prepare_bind rfl Sends.prepend
    intro raw
    exact traces_ask rfl fun hash => ⟨[], _, rfl, Prepares.nil, rfl⟩
  · apply traces_construct_bind
    exact traces_ask rfl fun hash => ⟨[], _, rfl, Prepares.nil, rfl⟩

/-! ## One deployment -/

def sentLine (task : Task) (hash : Wire) : LogLine :=
  ⟨.info, "⏳ deploying " ++ task.name ++ ", tx " ++ hash.hex⟩

def deployedLine (task : Task) (receipt : Receipt) : LogLine :=
  ⟨.success, task.name ++ " deployed at " ++ receipt.address.display⟩

def SendsFor (abi : Json) (code : String) (args : List (Json CodePoints)) (hash : Wire) (es : List Exchange) :
    Prop :=
  ∃ es', es = ⟨.contract abi code, .ok ()⟩ :: es' ∧ Submits args hash es'

def send (d : Deployer) (chain : Chain) (abi : Json) (code : String) (args : List (Json CodePoints)) :
    Session Wire := do
  Session.ask chain (.contract abi code)
  let sender ← d.sender chain
  let params ← d.params chain sender
  d.submit chain params args

theorem traces_send (abi : Json) (code : String) (args : List (Json CodePoints)) :
    Traces (d.send chain abi code args) (SendsFor abi code args) := by
  unfold send
  refine traces_bind (P := fun _ es => es = [⟨.contract abi code, .ok ()⟩])
    (traces_ask rfl fun _ => rfl) ?_ ?_
  · rintro _ es rfl x hx
    rw [List.mem_singleton] at hx
    subst hx; exact ⟨rfl, rfl, rfl⟩
  · rintro _ es rfl
    apply traces_bind traces_sender (fun _ _ h => h.quiet)
    intro sender a ha
    apply traces_bind (traces_params sender) (fun _ _ h => h.quiet)
    intro params b hb
    exact (traces_submit params args).imp fun hash c hc =>
      ⟨a ++ (b ++ c), rfl, (hc.prepend hb).prepend ha⟩

/-- **All ways in which a deployment can go**, with their calls and log lines. `found` is the artifact
that the task refers to. -/
inductive Deploys (d : Deployer) (task : Task) (found : Option Artifact) :
    List Exchange → List LogLine → Except Error Deployed → Prop
  | unsubmitted {es : List Exchange} {e : Error} (h : Unsubmitted es e) :
      Deploys d task found es [] (.error e)
  | unconfirmed {es : List Exchange} {artifact : Artifact} {code : String} {hash : Wire}
      (hf : found = some artifact) (hc : codeText artifact.bytecode = .ok code)
      (h : SendsFor artifact.abi code task.args hash es) (e : Error) :
      Deploys d task found (es ++ [⟨.wait hash d.receiptTimeout, .error e⟩]) [sentLine task hash]
        (.error e)
  | reverted {es : List Exchange} {artifact : Artifact} {code : String} {hash : Wire} {receipt : Receipt}
      (hf : found = some artifact) (hc : codeText artifact.bytecode = .ok code)
      (h : SendsFor artifact.abi code task.args hash es)
      (hr : receipt.isReverted = true) :
      Deploys d task found (es ++ [⟨.wait hash d.receiptTimeout, .ok receipt⟩]) [sentLine task hash]
        (.error (.reverted task.name hash.hex))
  | deployed {es : List Exchange} {artifact : Artifact} {code : String} {hash : Wire} {receipt : Receipt}
      (hf : found = some artifact) (hc : codeText artifact.bytecode = .ok code)
      (h : SendsFor artifact.abi code task.args hash es)
      (hr : receipt.isReverted = false) :
      Deploys d task found (es ++ [⟨.wait hash d.receiptTimeout, .ok receipt⟩])
        [sentLine task hash, deployedLine task receipt] (.ok ⟨task.name, receipt.address, hash.hex⟩)

end Deployer

def Artifacts.withAddress (as : Artifacts) (key : String) (address : Json) : Artifacts :=
  match as.get? key with
  | none => as
  | some a => as.insert key { a with address }

def Artifacts.afterDeploy (as : Artifacts) (key : String) : Except Error Deployed → Artifacts
  | .ok x => as.withAddress key x.address
  | .error _ => as

def State.extend (s : State) (es : List Exchange) (lines : List LogLine) (contracts : Artifacts) :
    State :=
  { s with contracts, log := s.log ++ lines, events := s.events ++ es.map .chain }

namespace Deployer

variable {d : Deployer} {chain : Chain} {task : Task} {s t : State}

theorem runs_setAddress {key : String} {address : Json} {r : Except Error Unit} :
    Runs (setAddress key address) s r t ↔
      r = .ok () ∧ t = { s with contracts := Artifacts.withAddress s.contracts key address } := by
  have hstate : { s with contracts := Artifacts.withAddress s.contracts key address } =
      match s.contracts.get? key with
      | none => s
      | some a => { s with contracts := s.contracts.insert key { a with address } } := by
    unfold Artifacts.withAddress
    cases s.contracts.get? key <;> rfl
  rw [hstate]
  exact runs_modify

def confirm (d : Deployer) (chain : Chain) (task : Task) (hash : Wire) : Session Deployed := do
  Session.log .info ("⏳ deploying " ++ task.name ++ ", tx " ++ hash.hex)
  let receipt : Receipt ← Session.ask chain (.wait hash d.receiptTimeout)
  if receipt.isReverted then throw (.reverted task.name hash.hex)
  setAddress task.key receipt.address
  Session.log .success (task.name ++ " deployed at " ++ receipt.address.display)
  return ⟨task.name, receipt.address, hash.hex⟩

theorem deploy_eq : d.deploy chain task = (do
    let some artifact := (← get).contracts.get? task.key | throw (.missingContract task.key)
    let code ← ofExcept (codeText artifact.bytecode)
    let hash ← d.send chain artifact.abi code task.args
    d.confirm chain task hash) := by
  unfold deploy
  apply bind_congr
  intro u
  cases u.contracts.get? task.key with
  | none => rfl
  | some artifact => simp only [send, confirm, bind_assoc]

/-- What is left of a deployment whose transaction was sent makes it one of those that are known. -/
theorem runs_confirm {found : Option Artifact} {artifact : Artifact} {code : String}
    {es : List Exchange} {hash : Wire} {r : Except Error Deployed} (hf : found = some artifact)
    (hc : codeText artifact.bytecode = .ok code) (hs : SendsFor artifact.abi code task.args hash es)
    (h : Runs (d.confirm chain task hash) s r t) :
    ∃ o lines, Deploys d task found (es ++ [⟨.wait hash d.receiptTimeout, o⟩]) lines r ∧
      t = s.extend [⟨.wait hash d.receiptTimeout, o⟩] lines
        (Artifacts.afterDeploy s.contracts task.key r) := by
  unfold confirm at h
  rw [runs_log_bind] at h
  rcases runs_bind.mp h with ⟨e, hw, rfl⟩ | ⟨receipt, u, hw, h⟩
  · obtain ⟨ho, rfl⟩ := runs_ask.mp hw
    refine ⟨.error e, _, .unconfirmed hf hc hs e, ?_⟩
    rw [← ho]
    rfl
  obtain ⟨ho, rfl⟩ := runs_ask.mp hw
  rw [← ho] at h
  by_cases hr : receipt.isReverted = true
  · rw [if_pos hr, runs_throw_bind] at h
    obtain ⟨rfl, rfl⟩ := h
    exact ⟨.ok receipt, _, .reverted hf hc hs hr, rfl⟩
  · rw [if_neg hr, runs_bind_of_ok (runs_setAddress.mpr ⟨rfl, rfl⟩), runs_log_bind, runs_pure] at h
    obtain ⟨rfl, rfl⟩ := h
    refine ⟨.ok receipt, _, .deployed hf hc hs (Bool.eq_false_iff.mpr hr), ?_⟩
    simp [State.extend, State.after, Artifacts.afterDeploy, sentLine, deployedLine]

theorem extend_nil (s : State) : s.extend [] [] s.contracts = s := by
  simp [State.extend]

theorem extend_after (s : State) (es es' : List Exchange) (lines : List LogLine)
    (contracts : Artifacts) :
    (s.after es).extend es' lines contracts = s.extend (es ++ es') lines contracts := by
  simp [State.extend, State.after]

/-- **A deployment goes in one of these ways, and nothing else of the state changes.** -/
theorem runs_deploy {r : Except Error Deployed} (h : Runs (d.deploy chain task) s r t) :
    ∃ es lines, Deploys d task (s.contracts.get? task.key) es lines r ∧
      t = s.extend es lines (Artifacts.afterDeploy s.contracts task.key r) := by
  rw [deploy_eq, runs_get_bind] at h
  cases hf : s.contracts.get? task.key with
  | none =>
    rw [hf] at h
    obtain ⟨rfl, rfl⟩ := runs_throw.mp h
    exact ⟨[], [], .unsubmitted (.stopped _), (extend_nil _).symm⟩
  | some artifact =>
    rw [hf] at h
    dsimp only at h
    cases hc : codeText artifact.bytecode with
    | error e =>
      rw [runs_bind_of_error (runs_ofExcept.mpr ⟨hc.symm, rfl⟩)] at h
      obtain ⟨rfl, rfl⟩ := h
      exact ⟨[], [], .unsubmitted (.stopped _), (extend_nil _).symm⟩
    | ok code =>
      rw [runs_bind_of_ok (runs_ofExcept.mpr ⟨hc.symm, rfl⟩)] at h
      rcases runs_bind.mp h with ⟨e, hs, rfl⟩ | ⟨hash, u, hs, hconf⟩
      · rcases traces_send _ _ _ _ _ _ hs with ⟨_, _, he, -⟩ | ⟨e', es, he, rfl, hu⟩
        · cases he
        · cases he
          refine ⟨es, [], .unsubmitted hu, ?_⟩
          rw [← extend_nil (s.after es), extend_after, List.append_nil]
          rfl
      · rcases traces_send _ _ _ _ _ _ hs with ⟨hash', es, he, rfl, hsend⟩ | ⟨_, _, he, -⟩
        · cases he
          obtain ⟨o, lines, hd, rfl⟩ := runs_confirm rfl hc hsend hconf
          exact ⟨_, lines, hd, extend_after s es _ _ _⟩
        · cases he

end Deployer

end ContractBindings

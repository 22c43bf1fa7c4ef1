import ContractBindings.Proofs.Deployment.Sequence
import ContractBindings.Rehearsal.Node

/-!
# Nonces of a signed run

A ledger keeps what the calls on a node say of transactions: as which bytes
they were signed, with what answer they were sent, and which receipts came
back. A node that counts the confirmed transactions of an account gives each
deployment of a run the nonce behind that of the one before, because a receipt
is awaited before the next nonce is read. The invariant is that everything
sent so far is confirmed (`Due`); the first deployment that leaves it is the
last one of the run.
-/

namespace ContractBindings

/-! ## Ledgers -/

/-- A transaction that was sent, with what the node answered. Its terms are known if they were given or
signed before. -/
structure Sent where
  terms : Option TransactionParams
  outcome : Except Error Wire

structure Ledger where
  signed : List (List UInt8 × TransactionParams) := []
  sent : List Sent := []
  received : List Wire := []

namespace Ledger

def enter (l : Ledger) (x : Exchange) : Ledger :=
  match x with
  | ⟨.sign transaction _, .ok raw⟩ => { l with signed := (raw, transaction.params) :: l.signed }
  | ⟨.sendRaw raw, outcome⟩ => { l with sent := l.sent ++ [⟨l.signed.lookup raw, outcome⟩] }
  | ⟨.transact params, outcome⟩ => { l with sent := l.sent ++ [⟨some params, outcome⟩] }
  | ⟨.wait hash _, .ok _⟩ => { l with received := hash :: l.received }
  | _ => l

def after (l : Ledger) (es : List Exchange) : Ledger := es.foldl enter l

def ofCalls (es : List Exchange) : Ledger := after {} es

def confirms (l : Ledger) (account : String) (x : Sent) : Bool :=
  x.terms.map (·.sender) == some account &&
    match x.outcome with
    | .ok hash => l.received.contains hash
    | .error _ => false

def confirmedOf (l : Ledger) (account : String) : Nat := l.sent.countP (l.confirms account)

def Settled (l : Ledger) (account : String) : Prop := ∀ x ∈ l.sent, l.confirms account x = true

theorem Settled.confirmedOf {l : Ledger} {account : String} (h : l.Settled account) :
    l.confirmedOf account = l.sent.length :=
  List.countP_eq_length.mpr h

theorem ofCalls_append (es es' : List Exchange) : ofCalls (es ++ es') = (ofCalls es).after es' :=
  List.foldl_append

/-- Every submission is in the ledger, whether it was taken or refused. -/
theorem length_sent_after : ∀ (l : Ledger) (es : List Exchange),
    (l.after es).sent.length = l.sent.length + es.countP (·.call.isSubmission)
  | _, [] => rfl
  | l, x :: es => by
    have hone : (l.enter x).sent.length = l.sent.length + if x.call.isSubmission then 1 else 0 := by
      obtain ⟨c, o⟩ := x
      cases c <;> cases o <;> simp [enter, Call.isSubmission]
    rw [after, List.foldl_cons, ← after, length_sent_after, hone, List.countP_cons]
    omega

end Ledger

structure Enters (es : List Exchange) (sent : List Sent) (received : List Wire) : Prop where
  sent : ∀ l : Ledger, (l.after es).sent = l.sent ++ sent
  received : ∀ l : Ledger, (l.after es).received = received ++ l.received

namespace Enters

theorem nil : Enters [] [] [] := ⟨fun _ => (List.append_nil _).symm, fun _ => rfl⟩

theorem append {es es' : List Exchange} {sent sent' : List Sent} {received received' : List Wire}
    (h : Enters es sent received) (h' : Enters es' sent' received') :
    Enters (es ++ es') (sent ++ sent') (received' ++ received) where
  sent l := by
    rw [Ledger.after, List.foldl_append]
    exact (h'.sent _).trans (by rw [← Ledger.after, h.sent, List.append_assoc])
  received l := by
    rw [Ledger.after, List.foldl_append]
    exact (h'.received _).trans (by rw [← Ledger.after, h.received, List.append_assoc])

theorem idle {c : Call} (hs : c.isSubmission = false) (hw : c.isWait = false)
    (o : Except Error c.Reply) : Enters [⟨c, o⟩] [] [] := by
  cases c with
  | sendRaw _ | transact _ => cases hs
  | wait _ _ => cases hw
  | _ => constructor <;> intro l <;> cases o <;> first | exact (List.append_nil _).symm | rfl

theorem receipt (hash : Wire) (timeout : Number) (receipt : Receipt) :
    Enters [⟨.wait hash timeout, .ok receipt⟩] [] [hash] :=
  ⟨fun _ => (List.append_nil _).symm, fun _ => rfl⟩

theorem noReceipt (hash : Wire) (timeout : Number) (e : Error) :
    Enters [⟨.wait hash timeout, .error e⟩] [] [] :=
  ⟨fun _ => (List.append_nil _).symm, fun _ => rfl⟩

/-- A transaction that is signed and then sent is entered with its own terms. -/
theorem signed (transaction : Transaction) (key : String) (raw : List UInt8)
    (o : Except Error Wire) :
    Enters [⟨.sign transaction key, .ok raw⟩, ⟨.sendRaw raw, o⟩] [⟨some transaction.params, o⟩] [] where
  sent l := by
    simp [Ledger.after, Ledger.enter]
  received _ := rfl

theorem sent_ofCalls {es : List Exchange} {sent : List Sent} {received : List Wire}
    (h : Enters es sent received) : (Ledger.ofCalls es).sent = sent :=
  h.sent {}

end Enters

def Sent.Carries (x : Sent) (account : String) (nonce : Int) : Prop :=
  ∃ p, x.terms = some p ∧ p.sender = account ∧ p.nonce = some nonce

theorem Ledger.Settled.after {l : Ledger} {account : String} {es : List Exchange} {sent : List Sent}
    {received : List Wire} (h : l.Settled account) (he : Enters es sent received)
    (hsent : ∀ x ∈ sent, (∃ n, x.Carries account n) ∧ ∃ hash ∈ received, x.outcome = .ok hash) :
    (l.after es).Settled account := by
  intro x hx
  rw [he.sent] at hx
  rcases List.mem_append.mp hx with hx | hx
  · -- what was confirmed stays so, as the receipts only grow
    have hc := h x hx
    unfold confirms at hc ⊢
    rw [he.received]
    cases ho : x.outcome <;> simp_all
  · obtain ⟨⟨n, p, hp, hs, -⟩, hash, hm, ho⟩ := hsent x hx
    unfold confirms
    rw [he.received, hp, ho]
    simp [hs, hm]

/-! ## A node that counts -/

/-- A node that gives a key its own account, builds a transaction with the sender and the nonce that it is
given, and counts the transactions of the account: those before the start, and those since then whose
receipts have come back. Any call may fail. -/
structure CountsConfirmed (chain : Chain) (key own : String) (first : Int) (start : List Exchange) :
    Prop where
  account : ∀ {es : List Exchange} {account : String},
    chain (start ++ es) (.keyAccount key) = .ok account → account = own
  count : ∀ {es : List Exchange} {n : Int},
    chain (start ++ es) (.transactionCount own) = .ok n →
      n = first + (Ledger.ofCalls es).confirmedOf own
  build : ∀ {es : List Exchange} {params : TransactionParams} {transaction : Transaction},
    chain (start ++ es) (.build params) = .ok transaction →
      transaction.params.sender = params.sender ∧ transaction.params.nonce = params.nonce

def Due (own : String) (first : Int) (start : List Exchange) (n : Int) (history : List Exchange) :
    Prop :=
  ∃ es, history = start ++ es ∧ (Ledger.ofCalls es).Settled own ∧
    n = first + (Ledger.ofCalls es).sent.length

section
variable {own : String} {first n : Int} {start history es : List Exchange}

theorem due_start : Due own first start first start :=
  ⟨[], (List.append_nil _).symm, fun _ hx => (List.not_mem_nil hx).elim, (Int.add_zero _).symm⟩

theorem Due.idle (h : Due own first start n history) (he : Enters es [] []) :
    Due own first start n (history ++ es) := by
  obtain ⟨before, rfl, hs, rfl⟩ := h
  refine ⟨before ++ es, List.append_assoc .., ?_, ?_⟩
  · rw [Ledger.ofCalls_append]
    exact hs.after he (by simp)
  · rw [Ledger.ofCalls_append, he.sent, List.append_nil]

theorem Due.confirmed {x : Sent} {received : List Wire} {hash : Wire}
    (h : Due own first start n history) (he : Enters es [x] received) (hx : x.Carries own n)
    (ho : x.outcome = .ok hash) (hr : hash ∈ received) :
    Due own first start (n + 1) (history ++ es) := by
  obtain ⟨before, rfl, hs, rfl⟩ := h
  refine ⟨before ++ es, List.append_assoc .., ?_, ?_⟩
  · rw [Ledger.ofCalls_append]
    refine hs.after he fun y hy => ?_
    rw [List.mem_singleton.mp hy]
    exact ⟨⟨_, hx⟩, hash, hr, ho⟩
  · rw [Ledger.ofCalls_append, he.sent, List.length_append]
    simp [Int.add_assoc]

theorem CountsConfirmed.nonce {chain : Chain} {key : String} {m : Int}
    (hnode : CountsConfirmed chain key own first start) (h : Due own first start n history)
    (hm : chain history (.transactionCount own) = .ok m) : m = n := by
  obtain ⟨es, rfl, hs, rfl⟩ := h
  rw [hnode.count hm, hs.confirmedOf]

end

/-! ## Work after some calls -/

def Leads {α : Type} (At : List Exchange → Prop) (work : Session α)
    (Q : Except Error α → List Exchange → Prop) : Prop :=
  ∀ ⦃s t : State⦄ ⦃r : Except Error α⦄, At s.exchanges → Runs work s r t →
    ∃ es, t.exchanges = s.exchanges ++ es ∧ Q r es

/-- What a stage of a deployment posts: at most one transaction, with the sender and the nonce that are
due, and one for which `Done` holds if the stage succeeds. -/
def Posts {α : Type} (own : String) (n : Int) (Done : α → Sent → List Wire → Prop)
    (r : Except Error α) (es : List Exchange) : Prop :=
  ∃ (sent : Option Sent) (received : List Wire), Enters es sent.toList received ∧
    (∀ x ∈ sent, x.Carries own n) ∧ ∀ a, r = .ok a → ∃ x ∈ sent, Done a x received

section
variable {α β : Type} {own : String} {n : Int} {At : List Exchange → Prop} {chain : Chain}

theorem leads_pure {Q : Except Error α → List Exchange → Prop} {a : α} (h : Q (.ok a) []) :
    Leads At (pure a) Q := by
  intro s t r _ hr
  obtain ⟨rfl, rfl⟩ := runs_pure.mp hr
  exact ⟨[], (List.append_nil _).symm, h⟩

theorem leads_throw {Q : Except Error α → List Exchange → Prop} {e : Error} (h : Q (.error e) []) :
    Leads At (throw e) Q := by
  intro s t r _ hr
  obtain ⟨rfl, rfl⟩ := runs_throw.mp hr
  exact ⟨[], (List.append_nil _).symm, h⟩

theorem leads_ask {c : Call} {Q : Except Error c.Reply → List Exchange → Prop}
    (h : ∀ history, At history → Q (chain history c) [⟨c, chain history c⟩]) :
    Leads At (Session.ask chain c) Q := by
  intro s t r hat hr
  obtain ⟨rfl, rfl⟩ := runs_ask.mp hr
  exact ⟨_, s.exchanges_after _, h _ hat⟩

theorem leads_bind {work : Session α} {f : α → Session β} {P : Except Error α → List Exchange → Prop}
    {Q : Except Error β → List Exchange → Prop} (hw : Leads At work P)
    (herror : ∀ e es, P (.error e) es → Q (.error e) es)
    (hok : ∀ a es, P (.ok a) es → Leads (fun later => ∃ history, At history ∧ later = history ++ es)
      (f a) fun r es' => Q r (es ++ es')) : Leads At (work >>= f) Q := by
  intro s t r hat hr
  rcases runs_bind.mp hr with ⟨e, h, rfl⟩ | ⟨a, u, h, h'⟩
  · obtain ⟨es, ht, hp⟩ := hw hat h
    exact ⟨es, ht, herror e es hp⟩
  · obtain ⟨es, hu, hp⟩ := hw hat h
    obtain ⟨es', ht, hq⟩ := hok a es hp ⟨_, hat, hu⟩ h'
    exact ⟨es ++ es', by rw [ht, hu, List.append_assoc], hq⟩

theorem Leads.imp {work : Session α} {P Q : Except Error α → List Exchange → Prop}
    (hw : Leads At work P) (h : ∀ r es, P r es → Q r es) : Leads At work Q := by
  intro s t r hat hr
  obtain ⟨es, ht, hp⟩ := hw hat hr
  exact ⟨es, ht, h r es hp⟩

def Looks (At : List Exchange → Prop) (work : Session α) (P : α → Prop) : Prop :=
  Leads At work fun r es => Enters es [] [] ∧ ∀ a, r = .ok a → P a

theorem posts_nothing {Done : α → Sent → List Wire → Prop} {e : Error} {es : List Exchange}
    (he : Enters es [] []) : Posts own n Done (.error e) es :=
  ⟨none, [], he, by simp, by simp⟩

theorem Posts.prepend {Done : α → Sent → List Wire → Prop} {r : Except Error α}
    {es es' : List Exchange} (he : Enters es [] []) (h : Posts own n Done r es') :
    Posts own n Done r (es ++ es') := by
  obtain ⟨sent, received, hs, hx, hd⟩ := h
  refine ⟨sent, received, ?_, hx, hd⟩
  have happend := he.append hs
  rwa [List.nil_append, List.append_nil] at happend

theorem looks_ask {c : Call} {P : c.Reply → Prop} (hs : c.isSubmission = false)
    (hw : c.isWait = false) (h : ∀ history a, At history → chain history c = .ok a → P a) :
    Looks At (Session.ask chain c) P :=
  leads_ask fun history hat => ⟨.idle hs hw _, fun a ha => h history a hat ha⟩

variable {first : Int} {start : List Exchange}

/-- What is looked up leaves the nonce due as it is. -/
theorem leads_look_bind {work : Session α} {f : α → Session β} {P : α → Prop}
    {Done : β → Sent → List Wire → Prop} (hw : Looks (Due own first start n) work P)
    (hf : ∀ a, P a → Leads (Due own first start n) (f a) (Posts own n Done)) :
    Leads (Due own first start n) (work >>= f) (Posts own n Done) := by
  refine leads_bind hw (fun e es hp => posts_nothing hp.1) fun a es hp => ?_
  rintro s t r ⟨history, hat, hs⟩ hr
  obtain ⟨es', ht, hq⟩ := hf a (hp.2 a rfl) (hs ▸ hat.idle hp.1) hr
  exact ⟨es', ht, hq.prepend hp.1⟩

end

/-! ## The stages of a deployment -/

namespace Deployer

variable {d : Deployer} {chain : Chain} {key own : String} {first n : Int} {start : List Exchange}

theorem looks_sender (hkey : d.key? = some key) (hnode : CountsConfirmed chain key own first start) :
    Looks (Due own first start n) (d.sender chain) (· = own) := by
  unfold sender
  rw [hkey]
  refine looks_ask rfl rfl fun history account hat ha => ?_
  obtain ⟨es, rfl, -⟩ := hat
  exact hnode.account ha

theorem looks_params {At : List Exchange → Prop} (sender : String) :
    Looks At (d.params chain sender) (·.sender = sender) := by
  have hpure : ∀ gasPrice : Option Int, Looks At
      (pure ⟨sender, d.gas, gasPrice, d.chainId, none⟩) fun p : TransactionParams => p.sender = sender :=
    fun gasPrice => leads_pure ⟨.nil, fun a ha => by cases ha; rfl⟩
  unfold params
  dsimp only
  split
  · rw [pure_bind]
    exact hpure none
  · rw [bind_map_left]
    refine leads_bind (P := fun _ es => Enters es [] [])
      (leads_ask fun _ _ => .idle rfl rfl _) (fun e es he => ⟨he, fun a ha => by cases ha⟩) ?_
    intro price es he
    exact leads_pure ⟨he.append .nil, fun a ha => by cases ha; rfl⟩

/-- A signed transaction is sent with its own terms. -/
theorem leads_post {At : List Exchange → Prop} {transaction : Transaction}
    (hs : transaction.params.sender = own) (hn : transaction.params.nonce = some n) :
    Leads At (Session.ask chain (.sign transaction key) >>= fun raw => Session.ask chain (.sendRaw raw))
      (Posts own n fun hash x _ => x.outcome = .ok hash) := by
  refine leads_bind (P := fun r es => es = [⟨.sign transaction key, r⟩]) (leads_ask fun _ _ => rfl) ?_ ?_
  · rintro e _ rfl
    exact posts_nothing (.idle rfl rfl _)
  · rintro raw _ rfl
    refine leads_ask fun history _ => ⟨some ⟨some transaction.params, chain history (.sendRaw raw)⟩, [],
      .signed transaction key raw _, ?_, fun hash ho => ⟨_, rfl, ho⟩⟩
    rintro _ ⟨⟩
    exact ⟨_, rfl, hs, hn⟩

theorem leads_submit (hkey : d.key? = some key) (hnode : CountsConfirmed chain key own first start)
    {p : TransactionParams} (hp : p.sender = own) (args : List (Json CodePoints)) :
    Leads (Due own first start n) (d.submit chain p args)
      (Posts own n fun hash x _ => x.outcome = .ok hash) := by
  unfold submit
  rw [hkey]
  dsimp only
  refine leads_look_bind (P := (· = n)) (looks_ask rfl rfl ?_) ?_
  · intro history m hat hm
    rw [hp] at hm
    exact hnode.nonce hat hm
  rintro _ rfl
  refine leads_look_bind (P := fun _ => True) (looks_ask rfl rfl fun _ _ _ _ => trivial) fun _ _ => ?_
  refine leads_look_bind (P := fun transaction => transaction.params.sender = own ∧
    transaction.params.nonce = some _) (looks_ask rfl rfl ?_) fun transaction ht => leads_post ht.1 ht.2
  intro history transaction hat ht
  obtain ⟨es, rfl, -⟩ := hat
  obtain ⟨hs, hn⟩ := hnode.build ht
  exact ⟨hs.trans hp, hn⟩

theorem leads_send (hkey : d.key? = some key) (hnode : CountsConfirmed chain key own first start)
    (abi : Json) (code : String) (args : List (Json CodePoints)) :
    Leads (Due own first start n) (d.send chain abi code args)
      (Posts own n fun hash x _ => x.outcome = .ok hash) := by
  unfold send
  refine leads_look_bind (P := fun _ => True) (looks_ask rfl rfl fun _ _ _ _ => trivial) fun _ _ => ?_
  refine leads_look_bind (looks_sender hkey hnode) ?_
  rintro _ rfl
  exact leads_look_bind (looks_params _) fun p hp => leads_submit hkey hnode hp args

theorem leads_confirm {At : List Exchange → Prop} {task : Task} {hash : Wire} :
    Leads At (d.confirm chain task hash) fun r es =>
      ∃ received, Enters es [] received ∧ ∀ x, r = .ok x → hash ∈ received := by
  intro s t r _ h
  unfold confirm at h
  rw [runs_log_bind] at h
  rcases runs_bind.mp h with ⟨e, hw, rfl⟩ | ⟨receipt, u, hw, h⟩
  · obtain ⟨ho, rfl⟩ := runs_ask.mp hw
    rw [← ho]
    exact ⟨_, State.exchanges_after _ _, [], .noReceipt hash _ e, fun x hx => by cases hx⟩
  · obtain ⟨ho, rfl⟩ := runs_ask.mp hw
    rw [← ho] at h
    refine ⟨_, ?_, [hash], .receipt hash d.receiptTimeout receipt, fun x _ => List.mem_singleton_self _⟩
    have hafter := State.exchanges_after s [⟨.wait hash d.receiptTimeout, .ok receipt⟩]
    -- what follows the receipt changes the artifacts and the log
    by_cases hr : receipt.isReverted = true
    · rw [if_pos hr, runs_throw_bind] at h
      obtain ⟨-, rfl⟩ := h
      exact hafter
    · rw [if_neg hr, runs_bind_of_ok (runs_setAddress.mpr ⟨rfl, rfl⟩), runs_log_bind, runs_pure] at h
      obtain ⟨-, rfl⟩ := h
      exact hafter

def Confirmed (_ : Deployed) (x : Sent) (received : List Wire) : Prop :=
  ∃ hash ∈ received, x.outcome = .ok hash

theorem leads_deploy (hkey : d.key? = some key) (hnode : CountsConfirmed chain key own first start)
    (task : Task) :
    Leads (Due own first start n) (d.deploy chain task) (Posts own n Confirmed) := by
  intro s t r hat h
  rw [deploy_eq, runs_get_bind] at h
  cases hf : s.contracts.get? task.key with
  | none =>
    rw [hf] at h
    exact leads_throw (posts_nothing .nil) hat h
  | some artifact =>
    rw [hf] at h
    dsimp only at h
    cases hc : codeText artifact.bytecode with
    | error e =>
      rw [hc] at h
      exact leads_throw (posts_nothing .nil) hat (runs_throw_bind.mp h |> runs_throw.mpr)
    | ok code =>
      rw [runs_bind_of_ok (runs_ofExcept.mpr ⟨hc.symm, rfl⟩)] at h
      refine leads_bind (leads_send hkey hnode _ _ _) ?_ ?_ hat h
      · rintro e es ⟨sent, received, he, hx, -⟩
        exact ⟨sent, received, he, hx, fun a ha => by cases ha⟩
      · rintro hash es ⟨sent, received, he, hx, hdone⟩
        refine leads_confirm.imp ?_
        rintro r es' ⟨received', he', hr⟩
        obtain ⟨x, hm, ho⟩ := hdone hash rfl
        refine ⟨sent, received' ++ received, ?_, hx, fun a ha => ⟨x, hm, hash, ?_, ho⟩⟩
        · have happend := he.append he'
          rwa [List.append_nil] at happend
        · exact List.mem_append_left _ (hr a ha)

theorem leads_deployLogged (hkey : d.key? = some key)
    (hnode : CountsConfirmed chain key own first start) (task : Task) :
    Leads (Due own first start n) (d.deployLogged chain task) (Posts own n Confirmed) := by
  intro s t r hat h
  rcases runs_tryCatch.mp h with ⟨x, hx, rfl⟩ | ⟨e, u, he, hc⟩
  · exact leads_deploy hkey hnode task hat hx
  · rw [runs_log_bind, runs_throw] at hc
    obtain ⟨rfl, rfl⟩ := hc
    have hdeploy := leads_deploy hkey hnode task hat he
    exact hdeploy

/-! ## A run -/

inductive Numbered (own : String) : Int → List Attempt → Prop
  | nil (n : Int) : Numbered own n []
  | last {n : Int} {a : Attempt} {sent : Option Sent} {received : List Wire}
      (he : Enters a.calls sent.toList received) (hx : ∀ x ∈ sent, x.Carries own n) : Numbered own n [a]
  | next {n : Int} {a : Attempt} {x : Sent} {received : List Wire} {attempts : List Attempt}
      (he : Enters a.calls [x] received) (hx : x.Carries own n)
      (rest : Numbered own (n + 1) attempts) : Numbered own n (a :: attempts)

theorem Numbered.enters {attempts : List Attempt} (h : Numbered own n attempts) :
    ∃ sent received, Enters (attempts.flatMap (·.calls)) sent received ∧
      ∀ (i : Nat) (x : Sent), sent[i]? = some x → x.Carries own (n + i) ∧
        ∃ a, attempts[i]? = some a ∧ (Ledger.ofCalls a.calls).sent = [x] := by
  induction h with
  | nil => exact ⟨[], [], .nil, fun i x hx => by cases hx⟩
  | @last n a sent received he hx =>
    refine ⟨sent.toList, received, by simpa using he, fun i x hi => ?_⟩
    cases sent with
    | none => cases hi
    | some y =>
      cases i with
      | zero =>
        cases hi
        exact ⟨by simpa using hx _ rfl, a, rfl, he.sent_ofCalls⟩
      | succ i => cases hi
  | @next n a x received attempts he hx _ ih =>
    obtain ⟨sent, received', hrest, hsent⟩ := ih
    refine ⟨x :: sent, received' ++ received, he.append hrest, fun i y hi => ?_⟩
    cases i with
    | zero =>
      cases hi
      exact ⟨by simpa using hx, a, rfl, he.sent_ofCalls⟩
    | succ i =>
      obtain ⟨hc, hcalls⟩ := hsent i y hi
      refine ⟨?_, hcalls⟩
      rw [Int.natCast_succ, Int.add_comm (i : Int) 1, ← Int.add_assoc]
      exact hc

theorem runs_numbered (hkey : d.key? = some key) (hnode : CountsConfirmed chain key own first start) :
    ∀ {tasks : List Task} {s t : State} {r : Except Error (List Deployed)} {n : Int},
      Due own first start n s.exchanges → Runs (tasks.mapM (d.deployLogged chain)) s r t →
        ∃ attempts as, Attempts d s.contracts tasks attempts r as ∧ Numbered own n attempts ∧
          t.exchanges = s.exchanges ++ attempts.flatMap (·.calls)
  | [], s, t, r, n, _, h => by
    rw [List.mapM_nil, runs_pure] at h
    obtain ⟨rfl, rfl⟩ := h
    exact ⟨[], _, .nil _, .nil n, (List.append_nil _).symm⟩
  | task :: tasks, s, t, r, n, hdue, h => by
    rw [List.mapM_cons] at h
    rcases runs_bind.mp h with ⟨e, hone, rfl⟩ | ⟨x, u, hone, hrest⟩
    · obtain ⟨es, lines, hd, rfl⟩ := runs_deployLogged hone
      obtain ⟨es', hes, sent, received, he, hx, -⟩ := leads_deployLogged hkey hnode task hdue hone
      rw [exchanges_extend] at hes
      obtain rfl := List.append_cancel_left hes
      exact ⟨_, _, .failed hd tasks, .last he hx, by simp [exchanges_extend]⟩
    · obtain ⟨es, lines, hd, rfl⟩ := runs_deployLogged hone
      obtain ⟨es', hes, sent, received, he, hx, hdone⟩ := leads_deployLogged hkey hnode task hdue hone
      rw [exchanges_extend] at hes
      obtain rfl := List.append_cancel_left hes
      obtain ⟨y, hy, hash, hr, ho⟩ := hdone x rfl
      obtain rfl := Option.mem_def.mp hy
      rw [bind_pure_comp] at hrest
      obtain ⟨o, hmap, rfl⟩ := runs_map.mp hrest
      have hnext := hdue.confirmed he (hx y rfl) ho hr
      obtain ⟨attempts, as, ha, hn, ht⟩ := runs_numbered hkey hnode (by rwa [exchanges_extend]) hmap
      refine ⟨_, as, .next hd ha, .next he (hx y rfl) hn, ?_⟩
      rw [ht, exchanges_extend, List.flatMap_cons, List.append_assoc]

/-- Every transaction that these calls submit is in the ledger, and the one at each place is that of the
attempt at this place, sent from the account with the nonce that many behind the first. -/
structure Consecutive (own : String) (first : Int) (attempts : List Attempt) (es : List Exchange) :
    Prop where
  count : (Ledger.ofCalls es).sent.length = es.countP (·.call.isSubmission)
  each : ∀ (i : Nat) (x : Sent), (Ledger.ofCalls es).sent[i]? = some x → x.Carries own (first + i) ∧
    ∃ a, attempts[i]? = some a ∧ (Ledger.ofCalls a.calls).sent = [x]

theorem Numbered.consecutive {attempts : List Attempt} {check : List Exchange}
    (h : Numbered own first attempts) (hcheck : Enters check [] []) :
    Consecutive own first attempts (check ++ attempts.flatMap (·.calls)) := by
  obtain ⟨sent, received, he, hsent⟩ := h.enters
  refine ⟨?_, ?_⟩
  · rw [Ledger.ofCalls, Ledger.length_sent_after]
    exact Nat.zero_add _
  · rw [(hcheck.append he).sent_ofCalls, List.nil_append]
    exact hsent

/-- **The transactions of a signed run have consecutive nonces**, in the order of the tasks, all from the
account of the key, on a node that counts confirmed transactions, however the run ends. -/
theorem run_nonces (hkey : d.key? = some key) {s : State}
    (hnode : CountsConfirmed chain key own first s.exchanges) (tasks : List Task) :
    ∃ r t check attempts, Runs (d.run chain tasks) s r t ∧
      t.exchanges = s.exchanges ++ (check ++ attempts.flatMap (·.calls)) ∧
      (∀ x ∈ check, x.call = .isConnected) ∧ attempts.map (·.task) <+: tasks ∧
      (∀ a ∈ attempts, a.InSequence d) ∧
      Consecutive own first attempts (check ++ attempts.flatMap (·.calls)) := by
  obtain ⟨r, t, h⟩ := runs_total (d.run chain tasks) s
  have hidle : ∀ o, Enters [⟨.isConnected, o⟩] [] [] := Enters.idle rfl rfl
  have hnone : ∀ {check : List Exchange}, Enters check [] [] → Consecutive own first []
      (check ++ ([] : List Attempt).flatMap (·.calls)) := (Numbered.nil first).consecutive
  -- no tasks, no answer, no connection, or deployments
  rcases runs_run_cases h with ⟨-, -, rfl⟩ | ⟨-, ⟨e, -, -, rfl⟩ | ⟨-, -, rfl⟩ | ⟨-, hrest⟩⟩
  · exact ⟨r, t, [], [], h, (List.append_nil _).symm, by simp, List.nil_prefix, by simp, hnone .nil⟩
  · exact ⟨r, _, _, [], h, by simp, by simp, List.nil_prefix, by simp, hnone (hidle (.error e))⟩
  · exact ⟨r, _, _, [], h, by simp [exchanges_extend], by simp, List.nil_prefix, by simp,
      hnone (hidle (.ok false))⟩
  · have hdue : Due own first s.exchanges first (s.after [⟨.isConnected, .ok true⟩]).exchanges := by
      rw [State.exchanges_after]
      exact due_start.idle (hidle (.ok true))
    obtain ⟨attempts, as, ha, hn, ht⟩ := runs_numbered hkey hnode hdue hrest
    refine ⟨r, t, [⟨.isConnected, .ok true⟩], attempts, h, ?_, by simp, ha.concludes.tasks_before,
      ha.inSequence, hn.consecutive (hidle (.ok true))⟩
    rw [ht, State.exchanges_after, List.append_assoc]

/-! A node that counts as it should, and whose second transaction is reverted. -/

def countingNode (account : String) (first : Int) : Chain := fun history call =>
  match call with
  | .keyAccount _ => .ok account
  | .transactionCount account => .ok (first + (Ledger.ofCalls history).confirmedOf account)
  | .sign transaction _ =>
    .ok (Text.Utf8.encode (transaction.data ++ toString (transaction.params.nonce.getD 0)))
  | call => ({ statuses := [(2, .int 0)] } : Rehearsal.NodeScript).node history call

theorem countingNode_counts (account key : String) (first : Int) :
    CountsConfirmed (countingNode account first) key account first [] where
  account h := (Except.ok.inj h).symm
  count h := (Except.ok.inj h).symm
  build {es params transaction} h := by
    have hbuilt : transaction = ⟨params, "tx"⟩ := (Except.ok.inj h).symm
    exact ⟨congrArg (·.params.sender) hbuilt, congrArg (·.params.nonce) hbuilt⟩

def keyDeployer : Deployer where
  account := some "0xBB"
  privateKey := some "0x11"

def pairState : State where
  disk := ⟨[], []⟩
  contracts := ["Token", "Sale", "Auction"].map fun name =>
    (name, ⟨name, .arr [], .str "6000", [], .null, none, true⟩)

def pairTasks : List Task := ["Token", "Sale", "Auction"].map fun name => ⟨name, name, []⟩

/-- The second of three deployments is reverted, so there are two transactions. -/
theorem run_nonces_reverted :
    keyDeployer.key? = some "0x11" ∧
    CountsConfirmed (countingNode "0xAA" 7) "0x11" "0xAA" 7 pairState.exchanges ∧
    ∃ r t check attempts, Runs (keyDeployer.run (countingNode "0xAA" 7) pairTasks) pairState r t ∧
      (Ledger.ofCalls t.exchanges).sent.map (fun x => x.terms.bind (·.nonce)) = [some 7, some 8] ∧
      Consecutive "0xAA" 7 attempts (check ++ attempts.flatMap (·.calls)) := by
  have hkey : keyDeployer.key? = some "0x11" := by decide
  have hnode : CountsConfirmed (countingNode "0xAA" 7) "0x11" "0xAA" 7 pairState.exchanges :=
    countingNode_counts "0xAA" "0x11" 7
  obtain ⟨r, t, check, attempts, hrun, -, -, -, -, hc⟩ := run_nonces hkey hnode pairTasks
  refine ⟨hkey, hnode, r, t, check, attempts, hrun, ?_, hc⟩
  rw [show t = ((keyDeployer.run (countingNode "0xAA" 7) pairTasks).run.run pairState).2 from
    (congrArg Prod.snd hrun).symm]
  decide +kernel

end Deployer

end ContractBindings

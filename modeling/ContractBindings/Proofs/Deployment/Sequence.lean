import ContractBindings.Proofs.Deployment.Attempt

/-!
# Deployments one after the other

A run checks the connection and then deploys its tasks in order up to the
first failure (`Attempts`, one case for each way to go on). From what one
deployment can do follows the shape of the whole trace (`run_sequential`):
every segment of it sends at most one transaction and ends by awaiting it.
-/

namespace ContractBindings

structure Attempt where
  task : Task
  calls : List Exchange
  lines : List LogLine
  outcome : Except Error Deployed

namespace Deployer

def failureLine (task : Task) (e : Error) : LogLine :=
  ⟨.error, "deployment of " ++ task.name ++ " failed: " ++ e.message⟩

def outcomeLines (task : Task) : Except Error Deployed → List LogLine
  | .ok _ => []
  | .error e => [failureLine task e]

inductive Attempts (d : Deployer) : Artifacts → List Task → List Attempt →
    Except Error (List Deployed) → Artifacts → Prop
  | nil (as : Artifacts) : Attempts d as [] [] (.ok []) as
  | failed {as : Artifacts} {task : Task} {es : List Exchange} {lines : List LogLine} {e : Error}
      (h : Deploys d task (as.get? task.key) es lines (.error e)) (tasks : List Task) :
      Attempts d as (task :: tasks) [⟨task, es, lines ++ [failureLine task e], .error e⟩] (.error e) as
  | next {as as' : Artifacts} {task : Task} {tasks : List Task} {es : List Exchange}
      {lines : List LogLine} {x : Deployed} {attempts : List Attempt} {r : Except Error (List Deployed)}
      (h : Deploys d task (as.get? task.key) es lines (.ok x))
      (rest : Attempts d (as.withAddress task.key x.address) tasks attempts r as') :
      Attempts d as (task :: tasks) (⟨task, es, lines, .ok x⟩ :: attempts) (r.map (x :: ·)) as'

variable {d : Deployer} {chain : Chain}

theorem extend_extend (s : State) (es es' : List Exchange) (lines lines' : List LogLine)
    (as as' : Artifacts) :
    (s.extend es lines as).extend es' lines' as' = s.extend (es ++ es') (lines ++ lines') as' := by
  simp [State.extend]

theorem runs_deployLogged {task : Task} {s t : State} {r : Except Error Deployed}
    (h : Runs (d.deployLogged chain task) s r t) :
    ∃ es lines, Deploys d task (s.contracts.get? task.key) es lines r ∧
      t = s.extend es (lines ++ outcomeLines task r)
        (Artifacts.afterDeploy s.contracts task.key r) := by
  rcases runs_tryCatch.mp h with ⟨x, hx, rfl⟩ | ⟨e, u, he, hc⟩
  · obtain ⟨es, lines, hd, rfl⟩ := runs_deploy hx
    exact ⟨es, lines, hd, by rw [outcomeLines, List.append_nil]⟩
  · obtain ⟨es, lines, hd, rfl⟩ := runs_deploy he
    rw [runs_log_bind, runs_throw] at hc
    obtain ⟨rfl, rfl⟩ := hc
    exact ⟨es, lines, hd, by simp [State.extend, outcomeLines, failureLine]⟩

theorem runs_attempts : ∀ {tasks : List Task} {s t : State} {r : Except Error (List Deployed)},
    Runs (tasks.mapM (d.deployLogged chain)) s r t →
      ∃ attempts as, Attempts d s.contracts tasks attempts r as ∧
        t = s.extend (attempts.flatMap (·.calls)) (attempts.flatMap (·.lines)) as
  | [], s, t, r, h => by
    rw [List.mapM_nil, runs_pure] at h
    obtain ⟨rfl, rfl⟩ := h
    exact ⟨[], _, .nil _, (extend_nil _).symm⟩
  | task :: tasks, s, t, r, h => by
    rw [List.mapM_cons] at h
    rcases runs_bind.mp h with ⟨e, hone, rfl⟩ | ⟨x, u, hone, hrest⟩
    · obtain ⟨es, lines, hd, rfl⟩ := runs_deployLogged hone
      exact ⟨_, _, .failed hd tasks, by simp [Artifacts.afterDeploy, outcomeLines]⟩
    · obtain ⟨es, lines, hd, rfl⟩ := runs_deployLogged hone
      rw [bind_pure_comp] at hrest
      obtain ⟨o, hmap, rfl⟩ := runs_map.mp hrest
      obtain ⟨attempts, as, ha, rfl⟩ := runs_attempts hmap
      refine ⟨_, as, .next hd ha, ?_⟩
      rw [extend_extend, outcomeLines, List.append_nil, List.flatMap_cons, List.flatMap_cons]

end Deployer

/-! ## The calls of one attempt -/

theorem Unsubmitted.not_wait {es : List Exchange} {e : Error} (h : Unsubmitted es e) :
    ∀ x ∈ es, x.call.isWait = false := by
  induction h with
  | stopped => intro x hx; cases hx
  | refused c e hc =>
    intro x hx
    rw [List.mem_singleton] at hx
    subst hx; exact hc
  | next _ _ hw _ ih =>
    intro x hx
    rcases List.mem_cons.mp hx with rfl | hx
    · exact hw
    · exact ih x hx

theorem Unsubmitted.not_submitted {es : List Exchange} {e : Error} (h : Unsubmitted es e) :
    ∀ x ∈ es, x.submitted? = none := by
  induction h with
  | stopped => intro x hx; cases hx
  | refused c e hc =>
    intro x hx
    rw [List.mem_singleton] at hx
    subst hx; cases c <;> rfl
  | @next y _ _ _ hs _ _ ih =>
    intro x hx
    rcases List.mem_cons.mp hx with rfl | hx
    · cases hy : x.submitted? with
      | none => rfl
      | some hash => rw [(Exchange.isAnswered_of_submitted hy).2] at hs; cases hs
    · exact ih x hx

theorem Unsubmitted.countP_le_one {es : List Exchange} {e : Error} (h : Unsubmitted es e) :
    es.countP (·.call.isSubmission) ≤ 1 := by
  induction h with
  | stopped => simp
  | refused => exact List.countP_le_length
  | next _ hs _ _ ih => rw [List.countP_cons, hs]; exact ih

theorem Unsubmitted.of_failed {es : List Exchange} {e : Error} (h : Unsubmitted es e) :
    ∀ {pre post : List Exchange} {c : Call} {e' : Error}, es = pre ++ ⟨c, .error e'⟩ :: post →
      post = [] ∧ e = e' := by
  induction h with
  | stopped => intro pre post c e' h; cases pre <;> cases h
  | refused =>
    intro pre post c e' h
    cases pre with
    | nil => cases h; exact ⟨rfl, rfl⟩
    | cons y pre => cases pre <;> cases h
  | next ha _ _ _ ih =>
    intro pre post c e' h
    cases pre with
    | nil => cases h; cases ha
    | cons y pre => exact ih (List.cons.inj h).2

theorem Quiet.countP {q : List Exchange} (hq : Quiet q) : q.countP (·.call.isSubmission) = 0 := by
  rw [List.countP_eq_zero]
  intro x hx
  rw [(hq x hx).2.1]
  exact Bool.false_ne_true

theorem Call.not_isWait_of_isSubmission {c : Call} (h : c.isSubmission = true) : c.isWait = false := by
  cases c <;> first | rfl | cases h

/-- A call that sends, awaits or fails comes after those that do not. -/
theorem Quiet.split {q rest pre post : List Exchange} {x : Exchange} (hq : Quiet q)
    (h : q ++ rest = pre ++ x :: post)
    (hx : ¬(x.isAnswered = true ∧ x.call.isSubmission = false ∧ x.call.isWait = false)) :
    ∃ m, pre = q ++ m ∧ rest = m ++ x :: post := by
  rcases List.append_eq_append_iff.mp h with ⟨m, hp, hr⟩ | ⟨m, hp, hr⟩
  · exact ⟨m, hp, hr⟩
  · cases m with
    | nil => exact ⟨[], by rw [hp]; simp, hr.symm⟩
    | cons y m =>
      cases (List.cons.inj hr).1
      -- `x` would be one of the quiet calls
      exact absurd (hq x (by simp [hp])) hx

section
variable {q pre post : List Exchange} {x y w : Exchange} {hash : Wire}

theorem Quiet.split_two (hq : Quiet q) (h : q ++ [x, w] = pre ++ y :: post)
    (hy : ¬(y.isAnswered = true ∧ y.call.isSubmission = false ∧ y.call.isWait = false)) :
    (pre = q ∧ y = x ∧ post = [w]) ∨ (pre = q ++ [x] ∧ y = w ∧ post = []) := by
  obtain ⟨m, rfl, hm⟩ := hq.split h hy
  match m, hm with
  | [], hm => cases hm; exact Or.inl ⟨by simp, rfl, rfl⟩
  | [_], hm => cases hm; exact Or.inr ⟨rfl, rfl, rfl⟩
  | _ :: _ :: [], hm => cases hm
  | _ :: _ :: _ :: _, hm => cases hm

/-- Behind a sent transaction there is one call, so one that fails or awaits is that call. -/
theorem Quiet.split_last (hq : Quiet q) (hx : x.submitted? = some hash)
    (h : q ++ [x, w] = pre ++ y :: post) (hy : y.isAnswered = false ∨ y.call.isWait = true) :
    pre = q ++ [x] ∧ y = w ∧ post = [] := by
  obtain ⟨ha, hs⟩ := Exchange.isAnswered_of_submitted hx
  have hne : y ≠ x := by
    rintro rfl
    rcases hy with hy | hy
    · rw [ha] at hy; cases hy
    · rw [Call.not_isWait_of_isSubmission hs] at hy; cases hy
  have hloud : ¬(y.isAnswered = true ∧ y.call.isSubmission = false ∧ y.call.isWait = false) := by
    rintro ⟨hya, -, hyw⟩
    rcases hy with hy | hy
    · rw [hya] at hy; cases hy
    · rw [hyw] at hy; cases hy
  rcases hq.split_two h hloud with ⟨-, he, -⟩ | hl
  · exact absurd he hne
  · exact hl

end

/-- Calls of one deployment that come in order: at most one transaction is sent, and its receipt is
awaited by the next call, which is the last one. -/
structure InOrder (d : Deployer) (es : List Exchange) : Prop where
  submits_once : es.countP (·.call.isSubmission) ≤ 1
  awaits : ∀ {pre post : List Exchange} {x : Exchange} {hash : Wire}, es = pre ++ x :: post →
    x.submitted? = some hash → ∃ o, post = [⟨.wait hash d.receiptTimeout, o⟩]
  awaits_own : ∀ {pre post : List Exchange} {hash : Wire} {timeout : Number} {o : Except Error Receipt},
    es = pre ++ ⟨.wait hash timeout, o⟩ :: post →
      timeout = d.receiptTimeout ∧ post = [] ∧ ∃ q x, pre = q ++ [x] ∧ x.submitted? = some hash

theorem Unsubmitted.inOrder {d : Deployer} {es : List Exchange} {e : Error} (h : Unsubmitted es e) :
    InOrder d es where
  submits_once := h.countP_le_one
  awaits {pre post x hash} he hx := by
    have hm := h.not_submitted x (by simp [he])
    rw [hx] at hm
    cases hm
  awaits_own {pre post hash timeout o} he := by
    have hm := h.not_wait ⟨.wait hash timeout, o⟩ (by simp [he])
    cases hm

theorem Quiet.inOrder {d : Deployer} {q : List Exchange} {x : Exchange} {hash : Wire} (hq : Quiet q)
    (hx : x.submitted? = some hash) (o : Except Error Receipt) :
    InOrder d (q ++ [x, ⟨.wait hash d.receiptTimeout, o⟩]) where
  submits_once := by
    rw [List.countP_append, hq.countP, List.countP_cons, (Exchange.isAnswered_of_submitted hx).2]
    exact Nat.le_refl 1
  awaits {pre post y hash'} he hy := by
    obtain ⟨-, hs⟩ := Exchange.isAnswered_of_submitted hy
    rcases hq.split_two he (by simp [hs]) with ⟨rfl, rfl, rfl⟩ | ⟨-, rfl, -⟩
    · rw [hx] at hy
      cases hy; exact ⟨o, rfl⟩
    · cases hs
  awaits_own {pre post hash' timeout o'} he := by
    obtain ⟨rfl, hw, rfl⟩ := hq.split_last hx he (.inr rfl)
    cases hw; exact ⟨rfl, rfl, q, x, rfl, hx⟩

structure Attempt.InSequence (d : Deployer) (a : Attempt) : Prop extends InOrder d a.calls where
  aborts : ∀ {pre post : List Exchange} {c : Call} {e : Error}, a.calls = pre ++ ⟨c, .error e⟩ :: post →
    post = [] ∧ a.outcome = .error e
  reverts : ∀ {pre post : List Exchange} {hash : Wire} {timeout : Number} {receipt : Receipt},
    a.calls = pre ++ ⟨.wait hash timeout, .ok receipt⟩ :: post → receipt.isReverted = true →
      a.outcome = .error (.reverted a.task.name hash.hex)
  deploys : ∀ {x : Deployed}, a.outcome = .ok x → ∃ q y hash, ∃ receipt : Receipt,
    a.calls = q ++ [y, ⟨.wait hash d.receiptTimeout, .ok receipt⟩] ∧ y.submitted? = some hash ∧
      receipt.isReverted = false ∧ x = ⟨a.task.name, receipt.address, hash.hex⟩
  lines : ∃ lines, a.lines = lines ++ Deployer.outcomeLines a.task a.outcome ∧
    ∀ l ∈ lines, l.level ≠ .error

namespace Deployer

variable {d : Deployer} {task : Task} {abi : Json} {code : String} {args : List (Json CodePoints)}
  {hash : Wire} {es : List Exchange}

theorem SendsFor.split (h : SendsFor abi code args hash es) :
    ∃ q x, es = q ++ [x] ∧ Quiet q ∧ x.submitted? = some hash := by
  obtain ⟨_, rfl, a, _, rfl, ha, b, x, rfl, hb, hx⟩ := h
  have hc : ∀ c : Call, c.isSubmission = false → c.isWait = false → ∀ o, Quiet [⟨c, .ok o⟩] := by
    intro c hs hw o y hy
    rw [List.mem_singleton] at hy
    subst hy; exact ⟨rfl, hs, hw⟩
  refine ⟨⟨.contract abi code, .ok ()⟩ :: a ++ ⟨.construct args, .ok ()⟩ :: b, x, by simp, ?_, hx⟩
  exact ((hc (.contract abi code) rfl rfl ()).append ha.quiet).append
    ((hc (.construct args) rfl rfl ()).append hb.quiet)

theorem inSequence_awaited (h : SendsFor abi code args hash es) {o : Except Error Receipt}
    {lines : List LogLine} {r : Except Error Deployed} (hl : ∀ l ∈ lines, l.level ≠ .error)
    (hfail : ∀ e, o = .error e → r = .error e)
    (hrevert : ∀ receipt : Receipt, o = .ok receipt → receipt.isReverted = true →
      r = .error (.reverted task.name hash.hex))
    (hdone : ∀ x, r = .ok x → ∃ receipt : Receipt, o = .ok receipt ∧ receipt.isReverted = false ∧
      x = ⟨task.name, receipt.address, hash.hex⟩) :
    Attempt.InSequence d ⟨task, es ++ [⟨.wait hash d.receiptTimeout, o⟩],
      lines ++ outcomeLines task r, r⟩ := by
  obtain ⟨q, x, rfl, hq, hx⟩ := h.split
  rw [List.append_assoc]
  refine { hq.inOrder hx o with aborts := ?_, reverts := ?_, deploys := ?_, lines := ⟨lines, rfl, hl⟩ }
  · intro pre post c e he
    obtain ⟨-, hw, hp⟩ := hq.split_last hx he (.inl rfl)
    cases hw
    exact ⟨hp, hfail e rfl⟩
  · intro pre post hash' timeout receipt he hr
    obtain ⟨-, hw, -⟩ := hq.split_last hx he (.inr rfl)
    cases hw
    exact hrevert receipt rfl hr
  · intro y hy
    obtain ⟨receipt, rfl, hr, rfl⟩ := hdone y hy
    exact ⟨q, x, hash, receipt, rfl, hx, hr, rfl⟩

theorem Deploys.inSequence {found : Option Artifact} {lines : List LogLine}
    {r : Except Error Deployed} (h : Deploys d task found es lines r) :
    Attempt.InSequence d ⟨task, es, lines ++ outcomeLines task r, r⟩ := by
  cases h with
  | @unsubmitted _ e h =>
    refine { h.inOrder with aborts := ?_, reverts := ?_, deploys := ?_, lines := ⟨[], rfl, by simp⟩ }
    · intro pre post c e' he
      obtain ⟨hp, rfl⟩ := h.of_failed he
      exact ⟨hp, rfl⟩
    · intro pre post hash timeout receipt he _
      have hm : es = pre ++ ⟨.wait hash timeout, .ok receipt⟩ :: post := he
      cases h.not_wait ⟨.wait hash timeout, .ok receipt⟩ (by simp [hm])
    · intro x hx
      cases hx
  | unconfirmed _ _ h e =>
    refine inSequence_awaited h (by simp [sentLine]) ?_ ?_ ?_
    · intro _ he; cases he; rfl
    · intro _ he; cases he
    · intro _ hx; cases hx
  | reverted _ _ h hr =>
    refine inSequence_awaited h (by simp [sentLine]) ?_ ?_ ?_
    · intro _ he; cases he
    · intro _ _ _; rfl
    · intro _ hx; cases hx
  | @deployed _ _ _ _ receipt _ _ h hr =>
    refine inSequence_awaited h (by simp [sentLine, deployedLine]) ?_ ?_ ?_
    · intro _ he; cases he
    · intro _ he hr'; cases he; rw [hr] at hr'; cases hr'
    · intro _ hx; cases hx; exact ⟨receipt, rfl, hr, rfl⟩

/-! ## The calls of a run -/

/-- What a list of attempts makes of a list of tasks: all of them are deployed, or those in front are
and the next one fails, with one line that tells so at the end of the log. -/
def Concludes (tasks : List Task) (attempts : List Attempt) : Except Error (List Deployed) → Prop
  | .ok results =>
    attempts.map (·.task) = tasks ∧ attempts.map (·.outcome) = results.map .ok ∧
      ∀ l ∈ attempts.flatMap (·.lines), l.level ≠ .error
  | .error e =>
    ∃ before last rest, attempts = before ++ [last] ∧
      tasks = before.map (·.task) ++ last.task :: rest ∧
      (∀ a ∈ before, ∃ x, a.outcome = .ok x) ∧ last.outcome = .error e ∧
      ∃ lines, attempts.flatMap (·.lines) = lines ++ [failureLine last.task e] ∧
        ∀ l ∈ lines, l.level ≠ .error

theorem Attempts.inSequence {as as' : Artifacts} {tasks : List Task} {attempts : List Attempt}
    {r : Except Error (List Deployed)} (h : Attempts d as tasks attempts r as') :
    ∀ a ∈ attempts, a.InSequence d := by
  induction h with
  | nil => intro a ha; cases ha
  | failed h =>
    intro a ha
    rw [List.mem_singleton] at ha
    subst ha; exact h.inSequence
  | next h _ ih =>
    intro a ha
    rcases List.mem_cons.mp ha with rfl | ha
    · simpa [outcomeLines] using h.inSequence
    · exact ih a ha

theorem Deploys.lines_quiet {found : Option Artifact} {lines : List LogLine} {r : Except Error Deployed}
    (h : Deploys d task found es lines r) : ∀ l ∈ lines, l.level ≠ .error := by
  cases h <;> simp [sentLine, deployedLine]

theorem Attempts.concludes {as as' : Artifacts} {tasks : List Task} {attempts : List Attempt}
    {r : Except Error (List Deployed)} (h : Attempts d as tasks attempts r as') :
    Concludes tasks attempts r := by
  induction h with
  | nil => simp [Concludes]
  | @failed as task es lines e h tasks =>
    refine ⟨[], _, tasks, rfl, rfl, by simp, rfl, lines, by simp, h.lines_quiet⟩
  | @next as as' task tasks es lines x attempts r h _ ih =>
    cases r with
    | ok results =>
      obtain ⟨ht, ho, hl⟩ := ih
      refine ⟨by simp [ht], by simp [ho], ?_⟩
      intro l hm
      rw [List.flatMap_cons] at hm
      rcases List.mem_append.mp hm with hm | hm
      · exact h.lines_quiet l hm
      · exact hl l hm
    | error e =>
      obtain ⟨before, last, rest, rfl, rfl, hb, ho, lines', hl, hq⟩ := ih
      refine ⟨⟨task, es, lines, .ok x⟩ :: before, last, rest, rfl, rfl, ?_, ho, lines ++ lines', ?_, ?_⟩
      · intro a ha
        rcases List.mem_cons.mp ha with rfl | ha
        · exact ⟨x, rfl⟩
        · exact hb a ha
      · rw [List.flatMap_cons, hl, List.append_assoc]
      · intro l hm
        rcases List.mem_append.mp hm with hm | hm
        · exact h.lines_quiet l hm
        · exact hq l hm

theorem Concludes.tasks_before {tasks : List Task} {attempts : List Attempt}
    {r : Except Error (List Deployed)} (h : Concludes tasks attempts r) :
    attempts.map (·.task) <+: tasks := by
  cases r with
  | ok results => exact h.1 ▸ List.prefix_rfl
  | error e =>
    obtain ⟨before, last, rest, rfl, rfl, -⟩ := h
    exact ⟨rest, by simp⟩

structure RunsInSequence (d : Deployer) (chain : Chain) (tasks : List Task) (s : State)
    (r : Except Error (List Deployed)) (t : State) : Prop where
  idle : tasks = [] → r = .ok [] ∧ t = s
  unanswered : tasks ≠ [] → ∀ e, chain s.exchanges .isConnected = .error e →
    r = .error e ∧ t.exchanges = s.exchanges ++ [⟨.isConnected, .error e⟩] ∧ t.log = s.log
  unreachable : tasks ≠ [] → chain s.exchanges .isConnected = .ok false →
    r = .error .unreachable ∧ t.exchanges = s.exchanges ++ [⟨.isConnected, .ok false⟩] ∧
      t.log = s.log ++ [⟨.error, Error.unreachable.message⟩]
  connected : tasks ≠ [] → chain s.exchanges .isConnected = .ok true → ∃ attempts : List Attempt,
    t.exchanges = s.exchanges ++ ⟨.isConnected, .ok true⟩ :: attempts.flatMap (·.calls) ∧
      t.log = s.log ++ attempts.flatMap (·.lines) ∧
      (∀ a ∈ attempts, a.InSequence d) ∧ Concludes tasks attempts r

theorem exchanges_extend (s : State) (es : List Exchange) (lines : List LogLine) (as : Artifacts) :
    (s.extend es lines as).exchanges = s.exchanges ++ es :=
  s.exchanges_after es

/-- A run without tasks, or without a connection, ends before its first deployment. -/
theorem runs_run_cases {tasks : List Task} {s t : State} {r : Except Error (List Deployed)}
    (h : Runs (d.run chain tasks) s r t) :
    (tasks = [] ∧ r = .ok [] ∧ t = s) ∨ (tasks ≠ [] ∧
      ((∃ e, chain s.exchanges .isConnected = .error e ∧ r = .error e ∧
          t = s.after [⟨.isConnected, .error e⟩]) ∨
        (chain s.exchanges .isConnected = .ok false ∧ r = .error .unreachable ∧
          t = s.extend [⟨.isConnected, .ok false⟩] [⟨.error, Error.unreachable.message⟩] s.contracts) ∨
        (chain s.exchanges .isConnected = .ok true ∧
          Runs (tasks.mapM (d.deployLogged chain)) (s.after [⟨.isConnected, .ok true⟩]) r t))) := by
  unfold run at h
  cases tasks with
  | nil =>
    obtain ⟨rfl, rfl⟩ := runs_pure.mp h
    exact Or.inl ⟨rfl, rfl, rfl⟩
  | cons task tasks =>
    refine Or.inr ⟨List.cons_ne_nil _ _, ?_⟩
    rcases runs_bind.mp h with ⟨e, hask, rfl⟩ | ⟨connected, u, hask, hrest⟩
    · obtain ⟨hc, rfl⟩ := runs_ask.mp hask
      rw [← hc]
      exact Or.inl ⟨e, rfl, rfl, rfl⟩
    · obtain ⟨hc, rfl⟩ := runs_ask.mp hask
      rw [← hc] at hrest
      rw [← hc]
      apply Or.inr
      cases connected with
      | false =>
        dsimp only at hrest
        rw [Bool.not_false, if_pos rfl, runs_log_bind, runs_throw_bind] at hrest
        obtain ⟨rfl, rfl⟩ := hrest
        exact Or.inl ⟨rfl, rfl, rfl⟩
      | true => exact Or.inr ⟨rfl, hrest⟩

theorem runs_run {tasks : List Task} {s t : State} {r : Except Error (List Deployed)}
    (h : Runs (d.run chain tasks) s r t) :
    (tasks = [] ∧ r = .ok [] ∧ t = s) ∨ (tasks ≠ [] ∧
      ((∃ e, chain s.exchanges .isConnected = .error e ∧ r = .error e ∧
          t = s.after [⟨.isConnected, .error e⟩]) ∨
        (chain s.exchanges .isConnected = .ok false ∧ r = .error .unreachable ∧
          t = s.extend [⟨.isConnected, .ok false⟩] [⟨.error, Error.unreachable.message⟩] s.contracts) ∨
        (chain s.exchanges .isConnected = .ok true ∧ ∃ attempts as,
          Attempts d s.contracts tasks attempts r as ∧
            t = s.extend (⟨.isConnected, .ok true⟩ :: attempts.flatMap (·.calls))
              (attempts.flatMap (·.lines)) as))) := by
  rcases runs_run_cases h with hidle | ⟨hne, hunanswered | hunreachable | ⟨hc, hrest⟩⟩
  · exact .inl hidle
  · exact .inr ⟨hne, .inl hunanswered⟩
  · exact .inr ⟨hne, .inr (.inl hunreachable)⟩
  · obtain ⟨attempts, as, ha, rfl⟩ := runs_attempts hrest
    exact .inr ⟨hne, .inr (.inr ⟨hc, attempts, as, ha, extend_after s _ _ _ _⟩)⟩

/-- **A run of deployments is strictly sequential**, whatever the chain answers: after the check of the
connection its calls are those of one attempt after the other, each of which sends at most one
transaction and ends by awaiting it, and the first failure ends the run. -/
theorem run_sequential (d : Deployer) (chain : Chain) (tasks : List Task) (s : State) :
    ∃ r t, Runs (d.run chain tasks) s r t ∧ RunsInSequence d chain tasks s r t := by
  obtain ⟨r, t, h⟩ := runs_total (d.run chain tasks) s
  refine ⟨r, t, h, ?_⟩
  rcases runs_run h with ⟨rfl, rfl, rfl⟩ | ⟨hne, ⟨e, hc, rfl, rfl⟩ | ⟨hc, rfl, rfl⟩ |
    ⟨hc, attempts, as, ha, rfl⟩⟩
  · constructor <;> simp
  · constructor <;> simp [hne, hc]
  · refine ⟨fun ht => absurd ht hne, fun _ e he => ?_, fun _ _ => ?_, fun _ he => ?_⟩
    · rw [hc] at he; cases he
    · exact ⟨rfl, exchanges_extend s _ _ _, rfl⟩
    · rw [hc] at he; cases he
  · refine ⟨fun ht => absurd ht hne, fun _ e he => ?_, fun _ he => ?_, fun _ _ => ?_⟩
    · rw [hc] at he; cases he
    · rw [hc] at he; cases he
    · exact ⟨attempts, exchanges_extend s _ _ as, rfl, ha.inSequence, ha.concludes⟩

end Deployer

end ContractBindings

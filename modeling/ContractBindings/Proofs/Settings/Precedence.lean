import ContractBindings.Proofs.Session.Files
import ContractBindings.Proofs.Settings.References
import ContractBindings.Settings.Load

/-!
# Which value of a setting counts

A call that loads settings adds to the environment what its file gives, and
reads the settings off it. Variables that are set stay as they are over any
number of calls, and the same call made again finds nothing to add, unless it
left its file off the first time.
-/

namespace ContractBindings

namespace Settings

variable {s t : State} {path : Option String}

/-! ## Calls -/

def fileStatements (disk : Files.Disk) (path : Option String) :
    Except Error (List EnvFile.Statement) :=
  if disk.isFile (envFilePath disk path) then
    (textOf disk (envFilePath disk path)).map EnvFile.statements
  else .ok []

def withFile (disk : Files.Disk) (path : Option String) (env : Environment) :
    Environment × Except Error Unit :=
  if env.ignoresFiles then (env, .ok ())
  else
    match fileStatements disk path with
    | .error e => (env, .error e)
    | .ok ss => env.complete (EnvFile.resolve env ss)

theorem runs_loadFile {r : Except Error Unit} : Runs (loadFile path) s r t ↔
    r = (withFile s.disk path s.environment).2 ∧
      t = { s with environment := (withFile s.disk path s.environment).1 } := by
  unfold loadFile withFile fileStatements
  rw [runs_get_bind]
  split
  · exact runs_pure
  · dsimp only
    split
    · cases ht : textOf s.disk (envFilePath s.disk path) with
      | error e => exact runs_bind_of_error (runs_readText.mpr ⟨ht.symm, rfl⟩)
      | ok cs =>
        rw [runs_bind_of_ok (runs_readText.mpr ⟨ht.symm, rfl⟩), runs_modify_bind]
        exact runs_ofExcept
    · exact runs_pure

theorem runs_load {r : Except Error Settings} : Runs (load path) s r t ↔
    t = { s with environment := (withFile s.disk path s.environment).1 } ∧
      r = (withFile s.disk path s.environment).2 >>= fun _ => ofEnvironment t.environment := by
  unfold load
  cases ho : (withFile s.disk path s.environment).2 with
  | error e =>
    rw [runs_bind_of_error (runs_loadFile.mpr ⟨ho.symm, rfl⟩), and_comm]
    rfl
  | ok u =>
    rw [runs_bind_of_ok (runs_loadFile.mpr ⟨ho.symm, rfl⟩), runs_get_bind, runs_ofExcept, and_comm]
    constructor
    · intro ⟨ht, hr⟩
      rw [ht]
      exact ⟨rfl, hr⟩
    · intro ⟨ht, hr⟩
      rw [ht] at hr
      exact ⟨ht, hr⟩

theorem grown_withFile (disk : Files.Disk) (path : Option String) (env : Environment) :
    Environment.Grown env (withFile disk path env).1 := by
  unfold withFile
  split
  · exact .refl env
  · split
    · exact .refl env
    · exact Environment.grown_complete env _

/-- The states that calls lead to, over files that can change between the calls. -/
inductive Loads (s : State) : State → Prop where
  | refl : Loads s s
  | call {t u : State} {disk : Files.Disk} {path : Option String} {r : Except Error Settings} :
    Loads s t → Runs (load path) { t with disk } r u → Loads s u

theorem Loads.grown (h : Loads s t) : Environment.Grown s.environment t.environment := by
  induction h with
  | refl => exact .refl _
  | call _ hrun ih =>
    rw [(runs_load.mp hrun).1]
    exact ih.trans (grown_withFile _ _ _)

/-! ## The same call again -/

section
variable {disk : Files.Disk} {env env' : Environment} {o : Except Error Unit}

theorem ignoresFiles_of_grown (h : Environment.Grown env env') (hf : env'.ignoresFiles = false) :
    env.ignoresFiles = false := by
  unfold Environment.ignoresFiles at hf ⊢
  cases hv : env.get? "PYTHON_DOTENV_DISABLED" with
  | none => rfl
  | some v =>
    rw [h.keeps _ _ hv] at hf
    exact hf

theorem withFile_ok {ss : List EnvFile.Statement} (h : env.ignoresFiles = false)
    (hf : fileStatements disk path = .ok ss) :
    withFile disk path env = env.complete (EnvFile.resolve env ss) := by
  rw [withFile, h, hf]
  rfl

theorem withFile_error {e : Error} (h : env.ignoresFiles = false)
    (hf : fileStatements disk path = .error e) : withFile disk path env = (env, .error e) := by
  rw [withFile, h, hf]
  rfl

def LeavesOff (disk : Files.Disk) (path : Option String) (env env' : Environment) : Prop :=
  ∃ ss, fileStatements disk path = .ok ss ∧ EnvFile.LeavesOff env env' ss

theorem withFile_again (h : withFile disk path env = (env', o)) (hf : env'.ignoresFiles = false) :
    withFile disk path env' = (env', o) ∨ LeavesOff disk path env env' := by
  have hgrown := grown_withFile disk path env
  rw [h] at hgrown
  have hf₀ := ignoresFiles_of_grown hgrown hf
  cases hs : fileStatements disk path with
  | error e =>
    rw [withFile_error hf₀ hs] at h
    cases h
    exact .inl (withFile_error hf₀ hs)
  | ok ss =>
    rw [withFile_ok hf₀ hs] at h
    rw [withFile_ok hf hs]
    exact (EnvFile.complete_again h).imp id fun hoff => ⟨ss, hs, hoff⟩

theorem LeavesOff.withFile (h : LeavesOff disk path env env') (hf : env.ignoresFiles = false) :
    withFile disk path env = (env', .error .nullInVariable) := by
  obtain ⟨ss, hs, hoff⟩ := h
  rw [withFile_ok hf hs, hoff.complete]

theorem LeavesOff.again (h : LeavesOff disk path env env') (hf : env'.ignoresFiles = false) :
    Settings.withFile disk path env' = (env', .error .badVariableName) ∨
      (Settings.withFile disk path env').1 ≠ env' := by
  obtain ⟨ss, hs, hoff⟩ := h
  rw [withFile_ok hf hs]
  exact hoff.again

end

/-- A call that is made again comes to the same outcome and changes nothing, but for one case: the
first one leaves its file off. -/
theorem load_again {u u' : State} {r r' : Except Error Settings} (h : Runs (load path) t r u)
    (h' : Runs (load path) u r' u') (hf : u.environment.ignoresFiles = false) :
    ((r' = r ∧ u' = u) ↔ ¬ LeavesOff t.disk path t.environment u.environment) ∧
      (LeavesOff t.disk path t.environment u.environment → r = .error .nullInVariable) := by
  obtain ⟨hu, rfl⟩ := runs_load.mp h
  obtain ⟨hu', rfl⟩ := runs_load.mp h'
  have hdisk : u.disk = t.disk := by rw [hu]
  have henv : u.environment = (withFile t.disk path t.environment).1 := by rw [hu]
  have hgrown := grown_withFile t.disk path t.environment
  rw [← henv] at hgrown
  have hf₀ := ignoresFiles_of_grown hgrown hf
  have hleft (hoff : LeavesOff t.disk path t.environment u.environment) :
      (withFile t.disk path t.environment).2 = .error .nullInVariable := by
    rw [hoff.withFile hf₀]
  refine ⟨⟨fun ⟨hr, hsame⟩ hoff => ?_, fun hnot => ?_⟩, fun hoff => ?_⟩
  · rw [hdisk, hleft hoff] at hr
    rcases hoff.again hf with hw | hw
    · rw [hw] at hr
      cases hr
    · apply hw
      rw [hsame, hdisk] at hu'
      exact (congrArg State.environment hu').symm
  · rcases withFile_again (Prod.ext henv.symm rfl) hf with hw | hoff
    · rw [← hdisk] at hw
      rw [hw] at hu' ⊢
      subst hu'
      exact ⟨by rw [hdisk], rfl⟩
    · exact absurd hoff hnot
  · rw [hleft hoff]
    rfl

/-! ## One call, and the values that are given with it -/

structure TextSetting where
  name : String
  flag : Overrides → Option String
  value : Settings → Option String

def textSettings : List TextSetting := [
  ⟨"RPC_URL", (·.rpcUrl), (some ·.rpcUrl)⟩,
  ⟨"PRIVATE_KEY", (·.privateKey), (·.privateKey)⟩,
  ⟨"ACCOUNT_ADDRESS", (·.account), (·.account)⟩,
  ⟨"SOLC_VERSION", (·.compilerVersion), (·.compilerVersion)⟩,
  ⟨"SOLC_BINARY", (·.compilerPath), (·.compilerPath)⟩,
  ⟨"WALLET_CONTEXT_MODULE", (·.walletContext), (some ·.contexts.wallet)⟩,
  ⟨"DAPP_CONTEXT_MODULE", (·.dappContext), (some ·.contexts.dapp)⟩]

/-- The value that counts: the flag, or else the variable, also an empty one, or else what the file
says. Where it is empty, the default counts. -/
def TextSetting.chosen (f : TextSetting) (o : Overrides) (env : Environment)
    (file : Keyed (Option String)) : Option String :=
  match f.flag o, env.get? f.name, (file.get? f.name).join with
  | some v, _, _ => some v
  | none, some v, _ => if v = "" then f.value default else some v
  | none, none, some v => if v = "" then f.value default else some v
  | none, none, none => f.value default

theorem value_override {settings overridden : Settings} {o : Overrides}
    (h : settings.override o = .ok overridden) :
    ∀ f ∈ textSettings, f.value overridden = (f.flag o <|> f.value settings) := by
  unfold override at h
  split at h
  · cases h
  · cases h
    simp only [textSettings, List.forall_mem_cons, true_and]
    refine ⟨?_, ?_, ?_, List.forall_mem_nil _⟩
    · cases o.rpcUrl <;> rfl
    · cases o.walletContext <;> rfl
    · cases o.dappContext <;> rfl

theorem value_ofEnvironment {env : Environment} {settings : Settings}
    (h : ofEnvironment env = .ok settings) :
    ∀ f ∈ textSettings, f.value settings = (env.text? f.name <|> f.value default) := by
  unfold ofEnvironment at h
  obtain ⟨chainId, -, h⟩ := except_bind_eq_ok.mp h
  obtain ⟨gas, -, h⟩ := except_bind_eq_ok.mp h
  obtain ⟨gasPrice, -, h⟩ := except_bind_eq_ok.mp h
  obtain ⟨timeout, -, h⟩ := except_bind_eq_ok.mp h
  cases h
  -- a setting without a default is absent where its variable is empty
  have habsent (x : Option String) : x = (x <|> none) := by cases x <;> rfl
  have hdefault (x : Option String) (d : String) : some (x.getD d) = (x <|> some d) := by
    cases x <;> rfl
  simp only [textSettings, List.forall_mem_cons]
  exact ⟨hdefault _ _, habsent _, habsent _, habsent _, habsent _, hdefault _ _, hdefault _ _,
    List.forall_mem_nil _⟩

theorem text?_or (env : Environment) (name : String) (d : Option String) :
    (env.text? name <|> d) =
      match env.get? name with
      | some v => if v = "" then d else some v
      | none => d := by
  unfold Environment.text?
  cases env.get? name with
  | none => cases d <;> rfl
  | some v =>
    by_cases hv : v = ""
    · subst hv
      cases d <;> rfl
    · simp [hv]

theorem override_of_known (settings : Settings) {o : Overrides} (h : o.unknown = none) :
    ∃ overridden, settings.override o = .ok overridden := by
  unfold override
  rw [h]
  exact ⟨_, rfl⟩

theorem load_chosen {settings overridden : Settings} {o : Overrides} {ss : List EnvFile.Statement}
    (h : Runs (load path) s (.ok settings) t) (hf : s.environment.ignoresFiles = false)
    (hs : fileStatements s.disk path = .ok ss) (ho : settings.override o = .ok overridden) :
    ∀ f ∈ textSettings, f.value overridden =
      f.chosen o s.environment (EnvFile.resolve s.environment ss) := by
  intro f hmem
  obtain ⟨ht, hr⟩ := runs_load.mp h
  obtain ⟨u, hdone, hsettings⟩ := except_bind_eq_ok.mp hr.symm
  have hcomplete : s.environment.complete (EnvFile.resolve s.environment ss) =
      (t.environment, .ok ()) := by
    rw [← withFile_ok hf hs, ht]
    exact Prod.ext rfl hdone
  have hfound := Environment.get?_complete (EnvFile.nodup_keys_resolve _ _) hcomplete f.name
  rw [value_override ho f hmem, value_ofEnvironment hsettings f hmem, text?_or, hfound]
  unfold TextSetting.chosen
  cases f.flag o with
  | some v => rfl
  | none =>
    cases s.environment.get? f.name with
    | some v => rfl
    | none => cases (Keyed.get? (EnvFile.resolve s.environment ss) f.name).join <;> rfl

/-- What is set stays as it is over all calls. The same call again changes nothing, unless its file was
left off. In the settings that one call and some flags give, each text is the one that counts. -/
theorem load_precedence (h : Loads s t) :
    (∀ name value, s.environment.get? name = some value →
      t.environment.get? name = some value) ∧
    (∀ path r r' u u', Runs (load path) t r u → Runs (load path) u r' u' →
      u.environment.ignoresFiles = false →
        ((r' = r ∧ u' = u) ↔ ¬ LeavesOff t.disk path t.environment u.environment) ∧
        (LeavesOff t.disk path t.environment u.environment → r = .error .nullInVariable)) ∧
    ∀ path settings u o, Runs (load path) t (.ok settings) u →
      t.environment.ignoresFiles = false → o.unknown = none →
        ∃ ss overridden, fileStatements t.disk path = .ok ss ∧
          settings.override o = .ok overridden ∧
          ∀ f ∈ textSettings, f.value overridden =
            f.chosen o t.environment (EnvFile.resolve t.environment ss) := by
  refine ⟨h.grown.keeps, fun path r r' u u' hrun hagain hf => load_again hrun hagain hf, ?_⟩
  intro path settings u o hrun hf hknown
  obtain ⟨overridden, ho⟩ := override_of_known settings hknown
  cases hs : fileStatements t.disk path with
  | ok ss => exact ⟨ss, overridden, rfl, ho, load_chosen hrun hf hs ho⟩
  | error e =>
    have hr := (runs_load.mp hrun).2
    rw [withFile_error hf hs] at hr
    cases hr

/-! An account that is set but empty hides the one in the file, and a flag hides the key in it. -/

def stateWith (content : String) (environment : Environment) : State where
  disk := ⟨[(["work"], .directory), (["work", ".env"], .file (Text.Utf8.encode content))], ["work"]⟩
  environment

def officeState : State :=
  stateWith "RPC_URL=http://node\nPRIVATE_KEY=0x1\nACCOUNT_ADDRESS=0x2\n" [("ACCOUNT_ADDRESS", "")]

def officeFlags : Overrides := { privateKey := some "0x3" }

theorem load_precedence_office :
    ∃ settings overridden u u', Runs (load none) officeState (.ok settings) u ∧
      u.environment.get? "ACCOUNT_ADDRESS" = some "" ∧
      Runs (load none) u (.ok settings) u' ∧ u' = u ∧
      settings.override officeFlags = .ok overridden ∧
      overridden.rpcUrl = "http://node" ∧ overridden.privateKey = some "0x3" ∧
      overridden.account = none := by
  obtain ⟨settings, u, hrun⟩ := exists_ok_of_isSome
    (show ((load none).run.run officeState).1.toOption.isSome = true by decide +kernel)
  have hu : u = ((load none).run.run officeState).2 := by
    rw [show (load none).run.run officeState = (.ok settings, u) from hrun]
  have hf : u.environment.ignoresFiles = false := by
    rw [hu]
    decide +kernel
  have hcalled : Loads officeState u := .call .refl hrun
  have hkept := (load_precedence hcalled).1 "ACCOUNT_ADDRESS" "" rfl
  obtain ⟨r', u', hagain⟩ := runs_total (load none) u
  obtain ⟨-, hsame, hchosen⟩ := load_precedence (s := officeState) .refl
  obtain ⟨hiff, herror⟩ := hsame none _ r' u u' hrun hagain hf
  obtain ⟨rfl, hstate⟩ := hiff.mpr fun hoff => by cases herror hoff
  obtain ⟨ss, overridden, hs, ho, hvalues⟩ :=
    hchosen none settings u officeFlags hrun (by decide +kernel) rfl
  have hss : fileStatements officeState.disk none = .ok [⟨"RPC_URL", some "http://node"⟩,
      ⟨"PRIVATE_KEY", some "0x1"⟩, ⟨"ACCOUNT_ADDRESS", some "0x2"⟩] := by decide +kernel
  cases hs.symm.trans hss
  simp only [textSettings, List.forall_mem_cons] at hvalues
  obtain ⟨hrpc, hkey, haccount, -⟩ := hvalues
  refine ⟨settings, overridden, u, u', hrun, hkept, hagain, hstate, ho, ?_, hkey, ?_⟩
  · exact Option.some.inj (hrpc.trans (by decide +kernel))
  · exact haccount.trans (by decide +kernel)

/-! A value that refers to a variable of its own file, which a later line gives another value. -/

theorem load_leaves_off :
    ∃ u u' settings, Runs (load none) (stateWith "Y=a\x00b\nX=$\x7bY\x7d\nY=c\n" [])
        (.error .nullInVariable) u ∧
      u.environment.ignoresFiles = false ∧ Runs (load none) u (.ok settings) u' ∧
      u'.environment ≠ u.environment := by
  refine ⟨_, _, default, rfl, ?_, rfl, ?_⟩
  · decide +kernel
  · decide +kernel

end Settings

end ContractBindings

import ContractBindings.Command.Run
import ContractBindings.Proofs.Build.GivenArguments
import ContractBindings.Proofs.Json.LineEnds
import ContractBindings.Proofs.Json.Numeric
import ContractBindings.Proofs.Text.Utf8

/-!
# Constructor arguments

A file gives constructor arguments if it is the text of an object whose values
are lists, and nothing else is taken for arguments. A command whose arguments
are refused ends before anything is asked of the compiler or the chain, and
before the variables or the disk change; arguments that are taken reach the
contracts as they stand in the file.
-/

namespace ContractBindings

open Session

/-! ## The text of a file -/

theorem isJsonFile_iff {σ : Type} [JsonString σ] [DecidableEq σ] {bytes : List UInt8} {v : Json σ} :
    IsJsonFile bytes v ↔
    ∃ text : String, bytes = Text.Utf8.encode text ∧ Json.Denotes Json.words text.toList v := by
  constructor
  · rintro ⟨cs, hdecode, hread⟩
    refine ⟨String.ofList cs, Text.Utf8.decode_eq_ok.mp hdecode, ?_⟩
    rw [String.toList_ofList]
    exact Json.denotes_unifyLineEnds.mp (Json.read_eq_ok.mp hread)
  · rintro ⟨text, rfl, htext⟩
    refine ⟨text.toList, Text.Utf8.decode_eq_ok.mpr (by rw [String.ofList_toList]), ?_⟩
    exact Json.read_eq_ok.mpr (Json.denotes_unifyLineEnds.mpr htext)

namespace ConstructorArgs

/-- The bytes of a file that gives arguments: the text of an object of lists, in UTF-8. -/
structure Gives (words : List (List Char × Json CodePoints)) (bytes : List UInt8)
    (m : ArgumentTable) : Prop where
  text : ∃ text : String, bytes = Text.Utf8.encode text ∧ Json.Denotes words text.toList (.obj m)
  lists : IsTable m

def IsAbout (path : Files.Path) (e : Error) : Prop :=
  (∃ cause, e = .argumentsUnreadable (toString path) cause) ∨ e = .argumentsMisshapen

theorem isWellShaped_iff {v : Json CodePoints} : isWellShaped v = true ↔ ∃ m, v = .obj m ∧ IsTable m := by
  constructor
  · intro h
    unfold isWellShaped at h
    split at h
    · next m =>
      refine ⟨m, rfl, fun name v hv => ?_⟩
      have hlist := List.all_eq_true.mp h (name, v) hv
      dsimp only at hlist
      split at hlist
      · next vs => exact ⟨vs, rfl⟩
      · cases hlist
    · cases h
  · rintro ⟨m, rfl, hm⟩
    refine List.all_eq_true.mpr fun ⟨name, v⟩ hv => ?_
    obtain ⟨vs, rfl⟩ := hm name v hv
    rfl

variable {path : Files.Path} {s t : State} {r : Except Error (Json CodePoints)}

/-- The arguments in a file, or an error about them. -/
theorem runs_load (h : Runs (load path) s r t) : t = s ∧
    ((∃ bytes m, s.disk.read (toString path) = .ok bytes ∧ Gives Json.words bytes m ∧
        r = .ok (.obj m)) ∨
      ∃ e, r = .error e ∧ IsAbout path e ∧
        ∀ bytes m, s.disk.read (toString path) = .ok bytes → ¬Gives Json.words bytes m) := by
  unfold load at h
  obtain ⟨o, u, hread⟩ := runs_total (readJson (toString path) : Session (Json CodePoints)) s
  have hkeeps : Keeps id (readJson (toString path) : Session (Json CodePoints)) := keeps_readJson _
  obtain rfl : u = s := hkeeps _ _ _ hread
  cases o with
  | error cause =>
    have hunreadable : Runs (tryCatch (readJson (toString path)) fun e =>
        throw (.argumentsUnreadable (toString path) e)) u
        (.error (.argumentsUnreadable (toString path) cause)) u :=
      runs_tryCatch.mpr (.inr ⟨cause, u, hread, runs_throw.mpr ⟨rfl, rfl⟩⟩)
    rw [runs_bind_of_error hunreadable] at h
    obtain ⟨rfl, rfl⟩ := h
    refine ⟨rfl, .inr ⟨_, rfl, .inl ⟨cause, rfl⟩, ?_⟩⟩
    rintro bytes m hbytes ⟨htext, -⟩
    have hok := runs_readJson_ok.mpr ⟨rfl, bytes, hbytes, isJsonFile_iff.mpr htext⟩
    cases (runs_unique hread hok).1
  | ok v =>
    obtain ⟨-, bytes, hbytes, hfile⟩ := runs_readJson_ok.mp hread
    rw [runs_bind_of_ok (run_tryCatch_of_ok hread)] at h
    split at h
    · next hshape =>
      obtain ⟨rfl, rfl⟩ := runs_pure.mp h
      obtain ⟨m, rfl, hm⟩ := isWellShaped_iff.mp hshape
      exact ⟨rfl, .inl ⟨bytes, m, hbytes, ⟨isJsonFile_iff.mp hfile, hm⟩, rfl⟩⟩
    · next hshape =>
      obtain ⟨rfl, rfl⟩ := runs_throw.mp h
      refine ⟨rfl, .inr ⟨_, rfl, .inr rfl, ?_⟩⟩
      rintro bytes' m hbytes' ⟨htext, hm⟩
      cases hbytes.symm.trans hbytes'
      obtain rfl := hfile.unique (isJsonFile_iff.mpr htext)
      exact hshape (isWellShaped_iff.mpr ⟨m, rfl, hm⟩)

end ConstructorArgs

namespace Command

/-! ## A command that ends at once -/

def CompileRequest.paths (c : CompileRequest) : List String :=
  [c.source, c.out] ++ c.constructorArgs.toList ++ c.envFile.toList

def OnlyLooks {α : Type} (paths : List String) (work : Session α) : Prop :=
  ∀ ⦃s t : State⦄ ⦃r : Except Error α⦄, Runs work s r t → t = s ∧
    ∀ e, r = .error e → e = .file .nullCharacter ∧ ∃ p ∈ paths, Text.hasNull p = true

section
variable {α β : Type} {paths : List String}

theorem onlyLooks_pure (a : α) : OnlyLooks paths (pure a) := by
  intro s t r h
  obtain ⟨rfl, rfl⟩ := runs_pure.mp h
  exact ⟨rfl, fun e he => by cases he⟩

theorem onlyLooks_bind {x : Session α} {f : α → Session β} (hx : OnlyLooks paths x)
    (hf : ∀ a, OnlyLooks paths (f a)) : OnlyLooks paths (x >>= f) := by
  intro s t r hr
  rcases runs_bind.mp hr with ⟨e, h, rfl⟩ | ⟨a, u, h, h'⟩
  · obtain ⟨ht, hnull⟩ := hx h
    exact ⟨ht, fun e' he => hnull e' (by cases he; rfl)⟩
  · obtain ⟨rfl, -⟩ := hx h
    exact hf a h'

theorem onlyLooks_lookAt {path : String} (h : path ∈ paths) : OnlyLooks paths (lookAt path) := by
  intro s t r hr
  unfold lookAt at hr
  split at hr
  · next hnull =>
    obtain ⟨rfl, rfl⟩ := runs_throw_bind.mp hr
    exact ⟨rfl, fun e he => by cases he; exact ⟨rfl, path, h, hnull⟩⟩
  · dsimp only at hr
    rw [runs_get_bind, runs_pure] at hr
    obtain ⟨rfl, rfl⟩ := hr
    exact ⟨rfl, fun e he => by cases he⟩

theorem onlyLooks_mapM : ∀ {path? : Option String}, (∀ p ∈ path?, p ∈ paths) →
    OnlyLooks paths (path?.mapM lookAt)
  | none, _ => onlyLooks_pure none
  | some path, h => onlyLooks_bind (onlyLooks_lookAt (h path rfl)) fun _ => onlyLooks_pure _

theorem onlyLooks_hasUsablePaths (c : CompileRequest) : OnlyLooks c.paths (hasUsablePaths c) := by
  unfold hasUsablePaths
  apply onlyLooks_bind (onlyLooks_lookAt (by simp [CompileRequest.paths]))
  intro _
  apply onlyLooks_bind (onlyLooks_lookAt (by simp [CompileRequest.paths]))
  intro _
  apply onlyLooks_bind (onlyLooks_mapM fun p hp => by simp_all [CompileRequest.paths])
  intro _
  apply onlyLooks_bind (onlyLooks_mapM fun p hp => by simp_all [CompileRequest.paths])
  intro _
  exact onlyLooks_pure _

end

variable {services : Services} {c : CompileRequest} {s : State}

theorem runs_loadArgs?_none {path : Files.Path} {e : Error}
    (hpath : c.constructorArgs.map Files.Path.ofString = some path)
    (h : Runs (ConstructorArgs.load path) s (.error e) s) : Runs (loadArgs? c) s (.ok none) s := by
  have hload : Runs (some <$> ConstructorArgs.load? (c.constructorArgs.map Files.Path.ofString)) s
      (.error e) s := by
    rw [hpath]
    exact runs_map.mpr ⟨_, h, rfl⟩
  -- the handler returns early, which ends the work with no arguments
  unfold loadArgs?
  apply runs_bind.mpr
  refine .inr ⟨.error none, s, runs_tryCatch.mpr (.inr ⟨e, s, run_bind_of_error hload, ?_⟩), ?_⟩
  · rfl
  · rfl

/-- A compilation that ends before it starts: with the exit code for a wrong command line, or, before
the arguments are looked for, at a word that can be no path; and with nothing changed or asked. -/
def EndsAtOnce (services : Services) (c : CompileRequest) (s : State) : Prop :=
  ∃ o, Runs (compile services c) s o s ∧
    (o = .ok .misuse ∨
      o = .error (.file .nullCharacter) ∧ ∃ p ∈ c.paths, Text.hasNull p = true) ∧
    ∀ args, Request.ofArgs args = some (.compile c) → Runs (run services args) s o s

theorem runs_withOwnVariables {α : Type} {work : Session α} {o : Except Error α}
    (h : Runs work s o s) : Runs (withOwnVariables work) s o s := by
  show ((work.run.run s).1, { (work.run.run s).2 with environment := s.environment }) = (o, s)
  rw [h]

theorem runs_run_of_compile {args : List String} {o : Except Error Exit}
    (hargs : Request.ofArgs args = some (.compile c)) (h : Runs (compile services c) s o s) :
    Runs (run services args) s o s := by
  unfold run
  rw [hargs]
  exact runs_withOwnVariables h

theorem endsAtOnce_of_load {path : Files.Path} {e : Error}
    (hpath : c.constructorArgs.map Files.Path.ofString = some path)
    (h : Runs (ConstructorArgs.load path) s (.error e) s) : EndsAtOnce services c s := by
  obtain ⟨o, t, hpaths⟩ := runs_total (hasUsablePaths c) s
  obtain ⟨rfl, hnull⟩ := onlyLooks_hasUsablePaths c hpaths
  cases o with
  | error e =>
    obtain ⟨rfl, hmem⟩ := hnull e rfl
    have hcompile : Runs (compile services c) t (.error (.file .nullCharacter)) t :=
      run_bind_of_error hpaths
    exact ⟨_, hcompile, .inr ⟨rfl, hmem⟩, fun _ hargs => runs_run_of_compile hargs hcompile⟩
  | ok usable =>
    have hcompile : Runs (compile services c) t (.ok .misuse) t := by
      apply (runs_bind_of_ok hpaths).mpr
      cases usable with
      | false => exact runs_pure.mpr ⟨rfl, rfl⟩
      | true => exact (runs_bind_of_ok (runs_loadArgs?_none hpath h)).mpr (runs_pure.mpr ⟨rfl, rfl⟩)
    exact ⟨_, hcompile, .inl rfl, fun _ hargs => runs_run_of_compile hargs hcompile⟩

end Command

/-! ## From the file to the contracts -/

namespace ConstructorArgs

/-- **Constructor arguments are checked before anything is done, and delivered as they are given.** To
load them changes nothing, and gives a table exactly if the file gives it; what else comes of it is an
error about the arguments, at which the command ends at once. Of several values under a name a table
holds the last one; the plan gives each deployable contract the list under its name, or the empty list;
and two tables with the same lists for the contracts that a build deploys lead to the same run of it,
with its calls, its files and its result. -/
theorem load_delivers :
    (∀ (path : Files.Path) (s t : State) (r : Except Error (Json CodePoints)), Runs (load path) s r t →
      t = s ∧
      (∀ v, r = .ok v ↔ ∃ bytes m, s.disk.read (toString path) = .ok bytes ∧
        Gives Json.words bytes m ∧ v = .obj m) ∧
      ∀ e, r = .error e → IsAbout path e ∧ ∀ (services : Services) (c : Command.CompileRequest),
        c.constructorArgs.map Files.Path.ofString = some path → Command.EndsAtOnce services c s) ∧
    (∀ (fields : List (CodePoints × Json CodePoints)) (name : CodePoints),
      (Keyed.ofPairs fields).get? name = fields.reverse.lookup name) ∧
    ∀ m, IsTable m →
      (∀ artifacts, Deployment.plan artifacts (.obj m) =
        .ok (artifacts.deployable.map fun (name, _) => ⟨name, name, listUnder m name⟩)) ∧
      ∀ m', IsTable m' → ∀ services request s,
        (∀ name, Build.Deploys services request s name → listUnder m name = listUnder m' name) →
          (Build.run services { request with args := .obj m }).run.run s =
            (Build.run services { request with args := .obj m' }).run.run s := by
  refine ⟨fun path s t r h => ?_, Keyed.get?_ofPairs, fun m hm => ⟨fun artifacts => ?_, ?_⟩⟩
  · obtain ⟨rfl, ⟨bytes, m, hbytes, hm, rfl⟩ | ⟨e, rfl, habout, hnone⟩⟩ := runs_load h
    · refine ⟨rfl, fun v => ⟨?_, ?_⟩, fun e he => by cases he⟩
      · rintro ⟨⟩
        exact ⟨bytes, m, hbytes, hm, rfl⟩
      · rintro ⟨bytes', m', hbytes', hm', rfl⟩
        cases hbytes.symm.trans hbytes'
        exact congrArg Except.ok ((isJsonFile_iff.mpr hm.text).unique (isJsonFile_iff.mpr hm'.text)).symm
    · refine ⟨rfl, fun v => ⟨fun hv => (by cases hv), ?_⟩, fun e he => ?_⟩
      · rintro ⟨bytes, m, hbytes, hm, -⟩
        exact absurd hm (hnone bytes m hbytes)
      · cases he
        exact ⟨habout, fun services c hpath => Command.endsAtOnce_of_load hpath h⟩
  · exact Deployment.plan_table hm artifacts
  · intro m' hm' services request s hsame
    exact Build.run_table_congr hm hm' hsame

/-! Files of arguments for one contract. -/

def argumentsPath : Files.Path := .ofString "args.json"

def argumentsState (text : String) : State where
  disk := {
    nodes := [(["work"], .directory), (["work", "args.json"], .file (Text.Utf8.encode text))]
    here := ["work"] }

def repeatedText : String := "\x7b\"Vault\": 7, \"Vault\": [1]\x7d"

def vaultTable : ArgumentTable := [(.ofString "Vault", .arr [.int 1])]

/-- A name and an argument that are a surrogate each, beside the list for the contract. -/
def widerText : String := "\x7b\"\\ud800\": [\"\\udfff\"], \"Vault\": [1]\x7d\r\n"

def widerTable : ArgumentTable := [
  ([.surrogate 0], .arr [.str [.surrogate 0x7FF]]), (.ofString "Vault", .arr [.int 1])]

def mixedText : String := "\x7b\"\\ud800\": 5, \"\\ud801\": []\x7d"

def vault : Artifact where
  name := "Vault"
  abi := .arr []
  bytecode := .str "60"
  entries := []
  deployable := true

theorem deploys_vault {name : String}
    (h : Build.Deploys Build.vaultServices Build.vaultRequest Build.emptyState name) : name = "Vault" := by
  obtain ⟨settings, u, contracts, t, hsettings, hcompile, hname⟩ := h
  obtain ⟨hs, rfl⟩ := runs_pure.mp hsettings
  cases hs
  have hkeys : ((Build.compileContracts Build.vaultServices Settings.default
      Build.vaultRequest.sourcePath Build.vaultRequest.directoryPath).run.run
        Build.emptyState).1.toOption.map Keyed.keys = some ["Vault"] := by decide +kernel
  rw [show _ = (Except.ok contracts, t) from hcompile] at hkeys
  rw [Option.some.inj hkeys] at hname
  exact List.mem_singleton.mp hname

theorem load_delivers_vault :
    Gives Json.words (Text.Utf8.encode repeatedText) vaultTable ∧
    Deployment.plan [("Vault", vault)] (.obj vaultTable) = .ok [⟨"Vault", "Vault", [.int 1]⟩] ∧
    (Build.run Build.vaultServices { Build.vaultRequest with args := .obj vaultTable }).run.run
        Build.emptyState =
      (Build.run Build.vaultServices { Build.vaultRequest with args := .obj widerTable }).run.run
        Build.emptyState ∧
    ∃ e t, Runs (load argumentsPath) (argumentsState mixedText) (.error e) t ∧ IsAbout argumentsPath e ∧
      Command.EndsAtOnce Build.vaultServices
        ⟨"Vault.sol", "out", none, none, some "args.json", none⟩ (argumentsState mixedText) := by
  have hgives : ∀ text m, ((load argumentsPath).run.run (argumentsState text)).1 = .ok (.obj m) →
      (argumentsState text).disk.read (toString argumentsPath) = .ok (Text.Utf8.encode text) →
      Gives Json.words (Text.Utf8.encode text) m := by
    intro text m hload hread
    obtain ⟨-, htable, -⟩ := load_delivers.1 argumentsPath _ _ _ (Prod.ext hload rfl)
    obtain ⟨bytes, m', hbytes, hm, he⟩ := (htable _).mp rfl
    cases hread.symm.trans hbytes
    cases he
    exact hm
  have hvault : Gives Json.words (Text.Utf8.encode repeatedText) vaultTable :=
    hgives _ _ (by decide +kernel) (by decide +kernel)
  have hwider : Gives Json.words (Text.Utf8.encode widerText) widerTable :=
    hgives _ _ (by decide +kernel) (by decide +kernel)
  obtain ⟨hplan, hsame⟩ := load_delivers.2.2 _ hvault.lists
  obtain ⟨t, hrefused⟩ : ∃ t, Runs (load argumentsPath) (argumentsState mixedText)
      (.error .argumentsMisshapen) t := exists_runs_error (by decide +kernel)
  obtain ⟨-, -, herror⟩ := load_delivers.1 argumentsPath _ _ _ hrefused
  obtain ⟨habout, hends⟩ := herror _ rfl
  refine ⟨hvault, (hplan _).trans (by decide), ?_, _, t, hrefused, habout, hends _ _ rfl⟩
  refine hsame _ hwider.lists _ _ _ fun name hname => ?_
  rw [deploys_vault hname]
  decide

def undefinedText : String := "\x7b\"Vault\": [NaN]\x7d"

/-- A file is taken for arguments though it is no text of the standard. -/
theorem load_takes_undefined : ∃ v t,
    (argumentsState undefinedText).disk.read (toString argumentsPath) =
      .ok (Text.Utf8.encode undefinedText) ∧
    Runs (load argumentsPath) (argumentsState undefinedText) (.ok v) t ∧
    ∀ m, ¬Gives Json.plainWords (Text.Utf8.encode undefinedText) m := by
  obtain ⟨v, t, hload⟩ : ∃ v t,
      Runs (load argumentsPath) (argumentsState undefinedText) (.ok v) t :=
    exists_ok_of_isSome (by decide +kernel)
  refine ⟨v, t, by decide +kernel, hload, ?_⟩
  rintro m ⟨⟨text, hbytes, htext⟩, -⟩
  have hnumeric := htext.isNumeric
  have hfile : IsJsonFile (Text.Utf8.encode undefinedText) (.obj m) :=
    isJsonFile_iff.mpr ⟨text, hbytes, htext.of_plain⟩
  have hnan : IsJsonFile (Text.Utf8.encode undefinedText)
      (.obj [(CodePoints.ofString "Vault", .arr [.double Binary64.nan])]) :=
    ⟨undefinedText.toList, by decide +kernel, by decide +kernel⟩
  rw [hnan.unique hfile] at hnumeric
  exact absurd hnumeric (by decide)

end ConstructorArgs

end ContractBindings

import ContractBindings.Proofs.Binding.ClientCalls

/-!
# Calls read from the hooks module

A hooks module is read as a client module is: the head of a function, the call
that it binds, and behind the call the values on which it is made again.
-/

namespace ContractBindings.Hooks

open Text

structure HookText where
  site : CallSite
  name : String
  params : String
  dependencies : Option String
deriving DecidableEq, Repr

def functionHead? (line : List Char) : Option (List Char × List Char) :=
  named? "export function " ") \x7b" line

/-- The call in a line that binds a contract: the contract is named twice, in quotes and as its class. -/
def boundCall? (line : List Char) : Option CallSite := do
  let (contract, rest) ← cutFirst? '\'' (← between? "        bind('" ")" line)
  let call ← dropLead? (", ".toList ++ (contract ++ ", signer, addresses).".toList)) rest
  let (method, args) ← cutFirst? '(' call
  return ⟨String.ofList contract, String.ofList method, String.ofList args⟩

def dependencyList? (line : List Char) : Option (List Char) := between? "    \x7d, [" "]);" line

def hooksFrom (name params : String) : List (List Char) → List HookText
  | [] => []
  | line :: rest =>
    match functionHead? line with
    | some (name, params) => hooksFrom (String.ofList name) (String.ofList params) rest
    | none =>
      match boundCall? line with
      | some site =>
        ⟨site, name, params, (rest.findSome? dependencyList?).map String.ofList⟩ ::
          hooksFrom name params rest
      | none => hooksFrom name params rest

def hooks (text : String) : List HookText := hooksFrom "" "" (Text.lines text)

def hookText (b : Binding) (m : Member) : HookText :=
  ⟨m.callSite b, m.hookName, m.args, some (dependencies m)⟩

/-! ## Lines -/

def leads : List String := ["export function ", "        bind('"]

theorem functionHead?_eq_none {line : List Char} (h : StartsWithNone leads line) :
    functionHead? line = none := by
  rw [functionHead?, named?, between?_eq_none (h _ (by simp [leads]))]
  rfl

theorem boundCall?_eq_none {line : List Char} (h : StartsWithNone leads line) :
    boundCall? line = none := by
  rw [boundCall?, between?_eq_none (h _ (by simp [leads]))]
  rfl

theorem hooksFrom_filler {name params : String} {line : List Char} (h : StartsWithNone leads line)
    (rest : List (List Char)) : hooksFrom name params (line :: rest) = hooksFrom name params rest := by
  simp [hooksFrom, functionHead?_eq_none h, boundCall?_eq_none h]

theorem hooksFrom_fillers {name params : String} {fillers : List (List Char)}
    (h : ∀ line ∈ fillers, StartsWithNone leads line) (rest : List (List Char)) :
    hooksFrom name params (fillers ++ rest) = hooksFrom name params rest := by
  induction fillers with
  | nil => rfl
  | cons line fillers ih =>
    have hline := h line List.mem_cons_self
    rw [List.cons_append, hooksFrom_filler hline, ih fun l hl => h l (List.mem_cons_of_mem line hl)]

def bindLine (b : Binding) (m : Member) : String :=
  "        bind('" ++ b.name ++ "', " ++ b.name ++ ", signer, addresses)." ++ m.method ++ "(" ++ m.args ++ ")"

theorem boundCall?_bindLine {b : Binding} {m : Member} (hb : b.IsPlain) (hm : m.IsPlain) :
    boundCall? (bindLine b m).toList = some (m.callSite b) := by
  have hquote : '\'' ∉ b.name.toList := not_mem_of_isIdentifier hb.name (by decide)
  have hinner : between? "        bind('" ")" (bindLine b m).toList = some (b.name.toList ++ '\'' ::
      (", ".toList ++ (b.name.toList ++ ", signer, addresses).".toList) ++
        (m.method.toList ++ '(' :: m.args.toList))) := by
    rw [between?_eq_some_iff]
    unfold bindLine
    simp
  have hlead := fun call : List Char => dropLead?_eq_some_iff.mpr
    (Eq.refl (", ".toList ++ (b.name.toList ++ ", signer, addresses).".toList) ++ call))
  unfold boundCall?
  simp only [hinner, Option.bind_eq_bind, Option.bind_some, cutFirst?_append hquote, hlead,
    cutFirst?_append hm.method_ends, String.ofList_toList]
  rfl

theorem functionHead?_bindLine (b : Binding) (m : Member) : functionHead? (bindLine b m).toList = none := by
  have hlead : between? "export function " ") \x7b" (bindLine b m).toList = none := by
    apply between?_eq_none
    unfold bindLine
    simp only [String.append_assoc, String.toList_append]
    exact dropLead?_eq_none (by decide) (by decide) _
  rw [functionHead?, named?, hlead]
  rfl

/-! ## The hooks module -/

theorem dependencyList?_line (m : Member) :
    dependencyList? ("    \x7d, [" ++ dependencies m ++ "]);").toList = some (dependencies m).toList := by
  rw [dependencyList?, between?_eq_some_iff]
  simp

def openingLines : List String := [
  "    const \x7b signer \x7d = useContext(WalletContext);",
  "    const \x7b addresses \x7d = useContext(DappContext);",
  "    const [result, setResult] = useState(LOADING);",
  "    useEffect(() => \x7b",
  "        let active = true;",
  "        setResult(LOADING);"]

def outcomeLines : List String := [
  "            .then((data) => \x7b if (active) setResult(\x7b status: 'success', data, error: undefined \x7d); \x7d)",
  "            .catch((error) => \x7b if (active) setResult(\x7b status: 'error', data: undefined, error \x7d); \x7d);",
  "        return () => \x7b active = false; \x7d;"]

def closingLines : List String := ["    return result;", "\x7d"]

theorem hookLines_eq (b : Binding) (m : Member) : hookLines b m =
    "" :: ("export function " ++ m.hookName ++ "(" ++ m.args ++ ") \x7b") :: (openingLines ++
      bindLine b m :: (outcomeLines ++ ("    \x7d, [" ++ dependencies m ++ "]);") :: closingLines)) := rfl

def fixedLines : List String := "" :: (openingLines ++ outcomeLines ++ closingLines ++ commonLines)

theorem fixedLines_spec :
    ∀ l ∈ fixedLines, IsOneLine l ∧ StartsWithNone ("    \x7d, [" :: leads) l.toList := by
  decide +kernel

theorem startsWithNone_fixed (ls : List String) (h : ∀ l ∈ ls, l ∈ fixedLines) :
    ∀ line ∈ ls.map String.toList, StartsWithNone leads line := by
  intro line hline
  obtain ⟨l, hl, rfl⟩ := List.mem_map.mp hline
  exact fun lead hm => (fixedLines_spec l (h l hl)).2 lead (List.mem_cons_of_mem _ hm)

theorem startsWithNone_empty : StartsWithNone leads "".toList :=
  startsWithNone_fixed [""] (by simp [fixedLines]) _ (by simp)

theorem hooksFrom_hookLines (name params : String) {b : Binding} {m : Member} (hb : b.IsPlain)
    (hm : m.IsPlain) (rest : List (List Char)) :
    hooksFrom name params ((hookLines b m).map String.toList ++ rest) =
      hookText b m :: hooksFrom m.hookName m.args rest := by
  have hhead : functionHead? ("export function " ++ m.hookName ++ "(" ++ m.args ++ ") \x7b").toList =
      some (m.hookName.toList, m.args.toList) := by
    refine named?_eq_some_iff.mpr ⟨?_, hm.hookName_ends⟩
    simp
  have hdeps : StartsWithNone leads ("    \x7d, [" ++ dependencies m ++ "]);").toList := by
    rw [String.append_assoc]
    exact startsWithNone_append "    \x7d, [" _ (by decide)
  have hfind : ∀ tail : List (List Char), (outcomeLines.map String.toList ++
      ("    \x7d, [" ++ dependencies m ++ "]);").toList :: tail).findSome? dependencyList? =
        some (dependencies m).toList := by
    intro tail
    have hnone : (outcomeLines.map String.toList).findSome? dependencyList? = none := by
      rw [List.findSome?_eq_none_iff]
      intro line hline
      obtain ⟨l, hl, rfl⟩ := List.mem_map.mp hline
      exact between?_eq_none ((fixedLines_spec l (by simp [fixedLines, hl])).2 _ List.mem_cons_self)
    rw [List.findSome?_append, hnone, List.findSome?_cons, dependencyList?_line]
    rfl
  have hopening := startsWithNone_fixed openingLines fun l hl => by simp [fixedLines, hl]
  have houtcome := startsWithNone_fixed outcomeLines fun l hl => by simp [fixedLines, hl]
  have hclosing := startsWithNone_fixed closingLines fun l hl => by simp [fixedLines, hl]
  rw [hookLines_eq]
  simp only [List.map_cons, List.map_append, List.cons_append, List.append_assoc]
  rw [hooksFrom_filler startsWithNone_empty, hooksFrom, hhead]
  dsimp only
  rw [hooksFrom_fillers hopening, hooksFrom, functionHead?_bindLine, boundCall?_bindLine hb hm]
  dsimp only
  rw [hfind, hooksFrom_fillers houtcome, hooksFrom_filler hdeps, hooksFrom_fillers hclosing]
  simp [hookText]

theorem hooksFrom_members (name params : String) {b : Binding} (hb : b.IsPlain) :
    ∀ {ms : List Member}, (∀ m ∈ ms, m.IsPlain) → ∀ rest : List (List Char), ∃ name' params',
      hooksFrom name params ((ms.flatMap (hookLines b)).map String.toList ++ rest) =
        ms.map (hookText b) ++ hooksFrom name' params' rest
  | [], _, rest => ⟨name, params, rfl⟩
  | m :: ms, h, rest => by
    have hm := h m List.mem_cons_self
    obtain ⟨name', params', hms⟩ :=
      hooksFrom_members m.hookName m.args hb (fun m' hm' => h m' (List.mem_cons_of_mem m hm')) rest
    refine ⟨name', params', ?_⟩
    rw [List.flatMap_cons, List.map_append, List.append_assoc, hooksFrom_hookLines name params hb hm, hms]
    rfl

theorem hooksFrom_bindings (name params : String) : ∀ {bindings : List Binding},
    (∀ b ∈ bindings, b.IsPlain) →
      hooksFrom name params ((bindings.flatMap fun b => b.members.flatMap (hookLines b)).map
        String.toList ++ [[]]) = bindings.flatMap fun b => b.members.map (hookText b)
  | [], _ => hooksFrom_filler startsWithNone_empty []
  | b :: bindings, h => by
    have hb := h b List.mem_cons_self
    have hbs := fun name params => hooksFrom_bindings name params fun b' hb' =>
      h b' (List.mem_cons_of_mem b hb')
    obtain ⟨name', params', hms⟩ := hooksFrom_members name params hb hb.members
      ((bindings.flatMap fun b => b.members.flatMap (hookLines b)).map String.toList ++ [[]])
    rw [List.flatMap_cons, List.map_append, List.append_assoc, hms, hbs, List.flatMap_cons]

theorem isOneLine_bindLine {b : Binding} {m : Member} (hb : b.IsPlain) (hm : m.IsPlain) :
    IsOneLine (bindLine b m) := by
  unfold bindLine
  simp only [isOneLine_append, isOneLine_of_isIdentifier hb.name, hm.method, hm.args, and_true]
  decide

theorem isOneLine_hookLines {b : Binding} {m : Member} (hb : b.IsPlain) (hm : m.IsPlain) :
    ∀ l ∈ hookLines b m, IsOneLine l := by
  intro l hl
  rw [hookLines_eq] at hl
  simp only [List.mem_cons, List.mem_append] at hl
  rcases hl with rfl | rfl | hl | rfl | hl | rfl | hl
  · exact (fixedLines_spec _ (by simp [fixedLines])).1
  · simp only [isOneLine_append, hm.hookName, hm.args, and_true]
    decide
  · exact (fixedLines_spec l (by simp [fixedLines, hl])).1
  · exact isOneLine_bindLine hb hm
  · exact (fixedLines_spec l (by simp [fixedLines, hl])).1
  · simp only [isOneLine_append, hm.dependencies, and_true]
    decide
  · exact (fixedLines_spec l (by simp [fixedLines, hl])).1

theorem isOneLine_importLines {bindings : List Binding} (h : ∀ b ∈ bindings, b.IsPlain)
    {clientModule : String} (hc : IsOneLine clientModule) {contexts : Contexts}
    (hw : IsOneLine contexts.wallet) (hd : IsOneLine contexts.dapp) :
    ∀ l ∈ importLines bindings clientModule contexts, IsOneLine l := by
  have hfixed : IsOneLine "import \x7b useContext, useEffect, useState \x7d from 'react';" ∧
      IsOneLine "import \x7b ethers \x7d from 'ethers';" := by decide
  intro l hl
  simp only [importLines, List.mem_cons, List.not_mem_nil, or_false] at hl
  rcases hl with rfl | rfl | rfl | rfl | rfl
  · exact hfixed.1
  · exact hfixed.2
  · simp only [isOneLine_append, hw, and_true]
    decide
  · simp only [isOneLine_append, hd, and_true]
    decide
  · simp only [isOneLine_append, isOneLine_exports h, hc, and_true]
    decide

theorem startsWithNone_importLines (bindings : List Binding) (clientModule : String)
    (contexts : Contexts) :
    ∀ l ∈ importLines bindings clientModule contexts, StartsWithNone leads l.toList := by
  have himport : ∀ rest, StartsWithNone leads ("import \x7b " ++ rest).toList := fun rest =>
    startsWithNone_append "import \x7b " rest (by decide)
  intro l hl
  simp only [importLines, List.mem_cons, List.not_mem_nil, or_false] at hl
  rcases hl with rfl | rfl | rfl | rfl | rfl
  · exact himport "useContext, useEffect, useState \x7d from 'react';"
  · exact himport "ethers \x7d from 'ethers';"
  · exact himport ("WalletContext \x7d from '" ++ contexts.wallet ++ "';")
  · exact himport ("DappContext \x7d from '" ++ contexts.dapp ++ "';")
  · simp only [String.append_assoc]
    exact himport _

/-- **A hooks module is read back as the members it was rendered from.** -/
theorem hooks_render {bindings : List Binding} (h : ∀ b ∈ bindings, b.IsPlain)
    {source clientModule : String} (hs : IsOneLine source) (hc : IsOneLine clientModule)
    {contexts : Contexts} (hw : IsOneLine contexts.wallet) (hd : IsOneLine contexts.dapp) :
    hooks (render bindings source clientModule contexts) =
      bindings.flatMap fun b => b.members.map (hookText b) := by
  have hfirst : StartsWithNone leads (generatedNote source).toList := by
    unfold generatedNote
    rw [String.append_assoc]
    exact startsWithNone_append "// Generated by sol2js from " _ (by decide)
  have hone : ∀ l ∈ lines bindings source clientModule contexts, IsOneLine l := by
    intro l hl
    simp only [lines, List.mem_append, List.mem_cons, List.mem_flatMap] at hl
    rcases hl with ((rfl | hl) | hl) | ⟨b, hb, m, hm, hl⟩
    · exact isOneLine_generatedNote hs
    · exact isOneLine_importLines h hc hw hd l hl
    · exact (fixedLines_spec l (by simp [fixedLines, hl])).1
    · exact isOneLine_hookLines (h b hb) ((h b hb).members m hm) l hl
  have hfillers : ∀ l ∈ (importLines bindings clientModule contexts ++ commonLines).map String.toList,
      StartsWithNone leads l := by
    intro line hl
    obtain ⟨l, hm, rfl⟩ := List.mem_map.mp hl
    rcases List.mem_append.mp hm with hl | hl
    · exact startsWithNone_importLines bindings clientModule contexts l hl
    · have hcommon := startsWithNone_fixed commonLines fun l hl => by simp [fixedLines, hl]
      exact hcommon _ (List.mem_map_of_mem hl)
  rw [hooks, render, lines_linesText, lines_linesText_of_isOneLine hone, lines, List.map_append,
    List.append_assoc, List.cons_append, List.map_cons, List.cons_append, hooksFrom_filler hfirst,
    hooksFrom_fillers hfillers, hooksFrom_bindings "" "" h]

end ContractBindings.Hooks

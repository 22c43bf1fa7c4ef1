import ContractBindings.Proofs.Binding.CallKey
import ContractBindings.Proofs.Binding.HookCalls
import ContractBindings.Proofs.Binding.Table

/-!
# The two generated modules make the same calls

Artifacts with names fit for code have plain members, so both modules can be
read back. What is read from the one and from the other are the calls of the
same members in the same order (`modules_agree`).
-/

namespace ContractBindings

open Text

structure Artifacts.HaveIdentifiers (as : Artifacts) : Prop where
  contracts : ∀ p ∈ as.deployable, isIdentifier p.1 = true
  functions : ∀ p ∈ as.deployable, ∀ e ∈ p.2.entries, e.isFunction = true → isIdentifier e.name = true
  parameters : ∀ p ∈ as.deployable, ∀ e ∈ p.2.entries, e.isFunction = true → ∀ q ∈ e.parameters,
    IsOneLine q.shape.typeName ∧ IsOneLine q.name

/-! ## Members that are plain -/

theorem Abi.Entry.isOneLine_paramNames {e : Abi.Entry}
    (h : ∀ q ∈ e.parameters, IsOneLine q.shape.typeName ∧ IsOneLine q.name) :
    ∀ p ∈ e.paramNames, IsOneLine p := by
  intro p hp
  unfold paramNames at hp
  rcases List.mem_append.mp hp with hp | hp
  · obtain ⟨q, hq, rfl⟩ := List.mem_map.mp hp
    obtain ⟨htype, hname⟩ := h q hq
    simp only [isOneLine_append, htype, hname, true_and, and_true]
    decide
  · split at hp
    · rw [List.mem_singleton] at hp
      subst hp
      decide
    · cases hp

theorem Artifacts.HaveIdentifiers.isPlain {as : Artifacts} (h : as.HaveIdentifiers) :
    ∀ b ∈ Binding.ofArtifacts as, b.IsPlain := by
  intro b hb
  obtain ⟨p, hp, rfl⟩ := List.mem_map.mp hb
  refine ⟨h.contracts p hp, fun m hm => ?_⟩
  obtain ⟨f, hf, hfun, hbuilt, hgoes⟩ := Member.mem_ofEntries hm
  have hname := h.functions p hp f hf hfun
  have hcontract : isIdentifier m.contract = true := by
    rw [hbuilt.contract]
    exact h.contracts p hp
  have hnewline : isNamePart '\n' = false ∧ isSuffixChar '\n' = false := by decide
  have hparen : isNamePart '(' = false ∧ isSuffixChar '(' = false := by decide
  exact {
    name := by
      rw [hbuilt.name]
      exact isOneLine_of_isIdentifier hname
    method := hgoes.not_mem hname hnewline.1 hnewline.2
    hookName := hgoes.not_mem_hookName hname hcontract hnewline.1 hnewline.2
    params := by
      rw [hbuilt.params]
      exact Abi.Entry.isOneLine_paramNames (h.parameters p hp f hf hfun)
    method_ends := hgoes.not_mem hname hparen.1 hparen.2
    hookName_ends := hgoes.not_mem_hookName hname hcontract hparen.1 hparen.2 }

/-! ## Agreement -/

def Binding.callSites (bindings : List Binding) : List CallSite :=
  bindings.flatMap fun b => b.members.map (·.callSite b)

theorem map_flatMap_members {β γ : Type} (bindings : List Binding) (f : Binding → Member → β) (g : β → γ) :
    (bindings.flatMap fun b => b.members.map (f b)).map g =
      bindings.flatMap fun b => b.members.map fun m => g (f b m) := by
  rw [List.map_flatMap]
  simp only [List.map_map]
  rfl

/-- **Both modules make the calls of the members, in their order.** In the client module the line
behind each head passes on the parameters, in the hooks module each call stands in its hook and
depends on the signer, the addresses and the parameters, and the table holds no line that reads as a
class or a method. -/
theorem modules_agree {as : Artifacts} (hn : as.keys.Nodup) (h : as.HaveIdentifiers)
    {source clientModule : String} (hs : IsOneLine source) (hc : IsOneLine clientModule)
    {contexts : Hooks.Contexts} (hw : IsOneLine contexts.wallet) (hd : IsOneLine contexts.dapp) :
    ∃ table client after,
      Client.render as (Binding.ofArtifacts as) source = .ok client ∧
      client = generatedNote source ++ "\n" ++ Client.literal table ++ "\n" ++ after ∧
      (∀ line ∈ Text.lines (Client.literal table),
        Client.className? line = none ∧ Client.methodHead? line = none) ∧
      (Client.methods client).map (·.site) = Binding.callSites (Binding.ofArtifacts as) ∧
      (Hooks.hooks (Hooks.render (Binding.ofArtifacts as) source clientModule contexts)).map (·.site) =
        Binding.callSites (Binding.ofArtifacts as) ∧
      (Client.methods client).map (·.body) = (Binding.ofArtifacts as).flatMap (fun b =>
        b.members.map fun m => some ("        return await " ++ m.callExpr ++ "(" ++ m.args ++ ");")) ∧
      (Hooks.hooks (Hooks.render (Binding.ofArtifacts as) source clientModule contexts)).map
          (fun c => (c.name, c.params, c.dependencies)) =
        (Binding.ofArtifacts as).flatMap (fun b => b.members.map fun m =>
          (m.hookName, m.args, some (", ".intercalate ("signer" :: "addresses" :: m.params)))) := by
  have hplain := h.isPlain
  let table := as.deployable.map Client.tableEntry
  have hrender : Client.render as (Binding.ofArtifacts as) source =
      .ok (linesText (Client.lines table (Binding.ofArtifacts as) source)) := by
    unfold Client.render
    rw [Client.table_ofArtifacts hn]
    rfl
  have hmethods := Client.methods_render hplain hs table
  have hhooks := Hooks.hooks_render hplain hs hc hw hd
  refine ⟨table, _, Client.afterTable (Binding.ofArtifacts as), hrender, ?_,
    fun line hl => ?_, ?_, ?_, ?_, ?_⟩
  · rw [Client.linesText_lines]
    unfold Client.literal
    simp only [String.append_assoc]
  · have hnone := Client.startsWithNone_literal table line hl
    exact ⟨Client.className?_eq_none hnone, Client.methodHead?_eq_none hnone⟩
  -- each of the four readings picks one part of what is read for a member
  · rw [hmethods]
    exact map_flatMap_members _ Client.methodText (·.site)
  · rw [hhooks]
    exact map_flatMap_members _ Hooks.hookText (·.site)
  · rw [hmethods]
    exact map_flatMap_members _ Client.methodText (·.body)
  · rw [hhooks]
    exact map_flatMap_members _ Hooks.hookText fun c => (c.name, c.params, c.dependencies)

def exchangeArtifacts : Artifacts := [
  ("Exchange", {
    name := "Exchange"
    abi := .arr Member.exchange
    bytecode := .str "6001"
    entries := Member.exchangeEntries
    deployable := true }),
  ("a library", {
    name := "a library"
    abi := .arr []
    bytecode := .str ""
    entries := []
    deployable := false })]

theorem haveIdentifiers_exchange : exchangeArtifacts.HaveIdentifiers :=
  ⟨by decide, by decide, by decide⟩

theorem modules_agree_exchange :
    exchangeArtifacts.keys.Nodup ∧ exchangeArtifacts.HaveIdentifiers ∧
    Binding.callSites (Binding.ofArtifacts exchangeArtifacts) = [
      ⟨"Exchange", "fill__address_uint256___", "tuple[]_orders"⟩,
      ⟨"Exchange", "fill_uint256", "uint256_id"⟩,
      ⟨"Exchange", "deployable", ""⟩] ∧
    ∃ client, Client.render exchangeArtifacts (Binding.ofArtifacts exchangeArtifacts) "Exchange.sol" =
        .ok client ∧
      (Client.methods client).map (·.site) =
        (Hooks.hooks (Hooks.render (Binding.ofArtifacts exchangeArtifacts) "Exchange.sol" "../Exchange"
          {})).map (·.site) := by
  have hn : exchangeArtifacts.keys.Nodup := by decide
  obtain ⟨table, client, after, hrender, -, -, hmethods, hhooks, -⟩ :=
    modules_agree hn haveIdentifiers_exchange (by decide : IsOneLine "Exchange.sol")
      (by decide : IsOneLine "../Exchange") (by decide : IsOneLine ({} : Hooks.Contexts).wallet)
      (by decide : IsOneLine ({} : Hooks.Contexts).dapp)
  exact ⟨hn, haveIdentifiers_exchange, by decide, client, hrender, hmethods.trans hhooks.symm⟩

end ContractBindings

import ContractBindings.Proofs.Binding.SameCalls

/-!
# Names of hooks across contracts

The name of a hook is that of its contract and that of its method with nothing
between them, so it can be read in two ways if the name of one contract goes on
from the name of another one. This is the only way in which hooks of two
contracts come to one name.
-/

namespace ContractBindings

/-- A name that goes on from another one as the name of a hook goes on from that of its contract, by a
character that is no lower-case letter. -/
def GoesOnFrom (name short : String) : Prop :=
  ∃ c cs, name.toList = short.toList ++ c :: cs ∧ c.isLower = false

/-- Of two texts that read alike up to some rest, one goes on from the other. -/
theorem append_eq_append_cases {α : Type} {xs ys : List α} {x y : α} {xs' ys' : List α}
    (h : xs ++ x :: xs' = ys ++ y :: ys') :
    xs = ys ∨ (∃ more, xs = ys ++ y :: more) ∨ ∃ more, ys = xs ++ x :: more := by
  rcases List.append_eq_append_iff.mp h with ⟨more, hys, hrest⟩ | ⟨more, hxs, hrest⟩
  · cases more with
    | nil => exact .inl (by rw [hys, List.append_nil])
    | cons z more =>
      rw [List.cons_append, List.cons.injEq] at hrest
      exact .inr (.inr ⟨more, by rw [hys, hrest.1]⟩)
  · cases more with
    | nil => exact .inl (by rw [hxs, List.append_nil])
    | cons z more =>
      rw [List.cons_append, List.cons.injEq] at hrest
      exact .inr (.inl ⟨more, by rw [hxs, hrest.1]⟩)

/-- Hooks of one name belong to one contract, or to two of which one name goes on from the other. -/
theorem contracts_of_hookName_eq {f f' : Abi.Entry} {m m' : Member} (hm : Member.MethodGoesOn f m)
    (hm' : Member.MethodGoesOn f' m') (hf : isIdentifier f.name = true)
    (hf' : isIdentifier f'.name = true) (h : m.hookName = m'.hookName) :
    m.contract = m'.contract ∨ GoesOnFrom m.contract m'.contract ∨ GoesOnFrom m'.contract m.contract := by
  obtain ⟨c, cs, -, -, hlower, hhook⟩ := hm.hookName hf
  obtain ⟨c', cs', -, -, hlower', hhook'⟩ := hm'.hookName hf'
  have htexts : m.contract.toList ++ c.toUpper :: cs = m'.contract.toList ++ c'.toUpper :: cs' := by
    rw [h, hhook'] at hhook
    exact (List.append_cancel_left hhook).symm
  rcases append_eq_append_cases htexts with heq | ⟨more, hgoes⟩ | ⟨more, hgoes⟩
  · exact .inl (String.toList_inj.mp heq)
  · exact .inr (.inl ⟨c'.toUpper, more, hgoes, hlower'⟩)
  · exact .inr (.inr ⟨c.toUpper, more, hgoes, hlower⟩)

/-- A hook that is read belongs to a contract that is to be deployed and to one of its functions. -/
theorem Hooks.mem_hooks_render {as : Artifacts} (h : as.HaveIdentifiers) {source clientModule : String}
    (hs : Text.IsOneLine source) (hc : Text.IsOneLine clientModule) {contexts : Contexts}
    (hw : Text.IsOneLine contexts.wallet) (hd : Text.IsOneLine contexts.dapp) {c : HookText}
    (hmem : c ∈ hooks (render (Binding.ofArtifacts as) source clientModule contexts)) :
    ∃ f m, isIdentifier f.name = true ∧ Member.MethodGoesOn f m ∧ c.name = m.hookName ∧
      c.site.contract = m.contract ∧ m.contract ∈ as.deployable.keys := by
  rw [hooks_render h.isPlain hs hc hw hd] at hmem
  obtain ⟨b, hb, hmem⟩ := List.mem_flatMap.mp hmem
  obtain ⟨m, hm, rfl⟩ := List.mem_map.mp hmem
  obtain ⟨p, hp, rfl⟩ := List.mem_map.mp hb
  obtain ⟨f, hf, hfun, hbuilt, hgoes⟩ := Member.mem_ofEntries hm
  have hcontract : m.contract = p.1 := hbuilt.contract
  refine ⟨f, m, h.functions p hp f hf hfun, hgoes, rfl, hcontract.symm, ?_⟩
  rw [hcontract]
  exact List.mem_map_of_mem hp

/-- **Two contracts do not give one name to their hooks, if no name of a contract goes on from the name
of another one.** -/
theorem hookNames_distinct {as : Artifacts} (h : as.HaveIdentifiers)
    (hfree : ∀ name ∈ as.deployable.keys, ∀ short ∈ as.deployable.keys, ¬GoesOnFrom name short)
    {source clientModule : String} (hs : Text.IsOneLine source) (hc : Text.IsOneLine clientModule)
    {contexts : Hooks.Contexts} (hw : Text.IsOneLine contexts.wallet)
    (hd : Text.IsOneLine contexts.dapp) :
    ∀ c ∈ Hooks.hooks (Hooks.render (Binding.ofArtifacts as) source clientModule contexts),
    ∀ c' ∈ Hooks.hooks (Hooks.render (Binding.ofArtifacts as) source clientModule contexts),
      c.site.contract ≠ c'.site.contract → c.name ≠ c'.name := by
  intro c hmem c' hmem' hne heq
  obtain ⟨f, m, hf, hm, hname, hcontract, hkey⟩ := Hooks.mem_hooks_render h hs hc hw hd hmem
  obtain ⟨f', m', hf', hm', hname', hcontract', hkey'⟩ := Hooks.mem_hooks_render h hs hc hw hd hmem'
  rw [hname, hname'] at heq
  rcases contracts_of_hookName_eq hm hm' hf hf' heq with hsame | hgoes | hgoes
  · exact hne (by rw [hcontract, hcontract', hsame])
  · exact hfree _ hkey _ hkey' hgoes
  · exact hfree _ hkey' _ hkey hgoes

def markedAbi (name : String) : Json :=
  .arr [.obj [("name", .str "deployable")], .obj [("name", .str name)]]

def markedArtifact (contract function : String) : Artifact where
  name := contract
  abi := markedAbi function
  bytecode := .str "6001"
  entries := [⟨"deployable", [], false, Abi.Entry.functionKind⟩, ⟨function, [], false, Abi.Entry.functionKind⟩]
  deployable := true

def auctionArtifacts : Artifacts :=
  [("Token", markedArtifact "Token" "saleOpen"), ("Tokens", markedArtifact "Tokens" "open")]

theorem hookNames_distinct_auction :
    auctionArtifacts.HaveIdentifiers ∧
    (∀ name ∈ auctionArtifacts.deployable.keys, ∀ short ∈ auctionArtifacts.deployable.keys,
      ¬GoesOnFrom name short) ∧
    ∀ c ∈ Hooks.hooks (Hooks.render (Binding.ofArtifacts auctionArtifacts) "Auction.sol" "../Auction" {}),
    ∀ c' ∈ Hooks.hooks (Hooks.render (Binding.ofArtifacts auctionArtifacts) "Auction.sol" "../Auction" {}),
      c.site.contract ≠ c'.site.contract → c.name ≠ c'.name := by
  have hids : auctionArtifacts.HaveIdentifiers := ⟨by decide, by decide, by decide⟩
  have hfree : ∀ name ∈ auctionArtifacts.deployable.keys,
      ∀ short ∈ auctionArtifacts.deployable.keys, ¬GoesOnFrom name short := by
    rintro name hname short hshort ⟨c, cs, hgoes, hlower⟩
    have hkeys : auctionArtifacts.deployable.keys = ["Token", "Tokens"] := by decide
    rw [hkeys] at hname hshort
    simp only [List.mem_cons, List.not_mem_nil, or_false] at hname hshort
    -- only `Tokens` goes on from another name, and it does so by a lower-case letter
    rcases hname with rfl | rfl <;> rcases hshort with rfl | rfl <;> simp at hgoes
    obtain ⟨rfl, -⟩ := hgoes
    exact absurd hlower (by decide)
  exact ⟨hids, hfree, hookNames_distinct hids hfree (by decide) (by decide) (by decide) (by decide)⟩

def saleArtifacts : Artifacts :=
  [("Token", markedArtifact "Token" "saleOpen"), ("TokenSale", markedArtifact "TokenSale" "open")]

/-- Two contracts of which the second one's name goes on from that of the first one, and a hook of
each under one name. -/
theorem hookNames_clash :
    Artifact.ofAbi "Token" (markedAbi "saleOpen") (.str "6001") none =
      .ok (markedArtifact "Token" "saleOpen") ∧
    Artifact.ofAbi "TokenSale" (markedAbi "open") (.str "6001") none =
      .ok (markedArtifact "TokenSale" "open") ∧
    saleArtifacts.keys.Nodup ∧ saleArtifacts.HaveIdentifiers ∧
    (Hooks.hooks (Hooks.render (Binding.ofArtifacts saleArtifacts) "Sale.sol" "../Sale" {})).map
        (fun c => (c.site.contract, c.name)) = [
      ("Token", "useTokenDeployable"), ("Token", "useTokenSaleOpen"),
      ("TokenSale", "useTokenSaleDeployable"), ("TokenSale", "useTokenSaleOpen")] := by
  have hids : saleArtifacts.HaveIdentifiers := ⟨by decide, by decide, by decide⟩
  refine ⟨rfl, rfl, by decide, hids, ?_⟩
  rw [Hooks.hooks_render hids.isPlain (by decide) (by decide) (by decide) (by decide)]
  decide

end ContractBindings

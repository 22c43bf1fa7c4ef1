import ContractBindings.Binding.Hooks
import ContractBindings.Proofs.Binding.Names
import ContractBindings.Proofs.Json.Layout

/-!
# Calls read from the client module

A generated module is read line by line, with no more knowledge than how the
lines of interest start and end. Reading a client module gives back the members
that it was rendered from, since no other line looks like one of those, the
lines of the table included.
-/

namespace ContractBindings

open Text

structure CallSite where
  contract : String
  method : String
  args : String
deriving DecidableEq, Repr

def Member.callSite (b : Binding) (m : Member) : CallSite := ⟨b.name, m.method, m.args⟩

/-! ## Members that lines can be read back from -/

structure Member.IsPlain (m : Member) : Prop where
  name : IsOneLine m.name
  method : IsOneLine m.method
  hookName : IsOneLine m.hookName
  params : ∀ p ∈ m.params, IsOneLine p
  method_ends : '(' ∉ m.method.toList
  hookName_ends : '(' ∉ m.hookName.toList

structure Binding.IsPlain (b : Binding) : Prop where
  name : isIdentifier b.name = true
  members : ∀ m ∈ b.members, m.IsPlain

theorem isOneLine_of_isIdentifier {s : String} (h : isIdentifier s = true) : IsOneLine s :=
  not_mem_of_isIdentifier h (by decide)

section
variable {m : Member}

theorem Member.IsPlain.args (h : m.IsPlain) : IsOneLine m.args :=
  IsOneLine.intercalate (by decide) h.params

theorem Member.IsPlain.dependencies (h : m.IsPlain) : IsOneLine (Hooks.dependencies m) := by
  apply IsOneLine.intercalate (by decide)
  intro s hs
  rcases List.mem_cons.mp hs with rfl | hs
  · decide
  rcases List.mem_cons.mp hs with rfl | hs
  · decide
  · exact h.params s hs

theorem Member.IsPlain.callExpr (h : m.IsPlain) : IsOneLine m.callExpr := by
  have hkey : IsOneLine (Json.str m.callKey).text := by
    rw [IsOneLine, Json.text, String.toList_ofList]
    exact Json.newline_not_mem_stringChars m.callKey
  have hfixed : IsOneLine "this.contract." ∧ IsOneLine "this.contract[" ∧ IsOneLine "]" := by decide
  unfold Member.callExpr
  split
  · exact isOneLine_append.mpr ⟨hfixed.1, h.name⟩
  · exact isOneLine_append.mpr ⟨isOneLine_append.mpr ⟨hfixed.2.1, hkey⟩, hfixed.2.2⟩

end

theorem isOneLine_exports {bindings : List Binding} (h : ∀ b ∈ bindings, b.IsPlain) :
    IsOneLine (Client.exports bindings) := by
  apply IsOneLine.intercalate (by decide)
  intro s hs
  rcases List.mem_cons.mp hs with rfl | hs
  · decide
  · obtain ⟨b, hb, rfl⟩ := List.mem_map.mp hs
    exact isOneLine_of_isIdentifier (h b hb).name

theorem isOneLine_generatedNote {source : String} (h : IsOneLine source) :
    IsOneLine (generatedNote source) := by
  unfold generatedNote
  simp only [isOneLine_append, h, and_true]
  decide

/-! ## The client module -/

namespace Client

structure MethodText where
  site : CallSite
  body : Option String
deriving DecidableEq, Repr

def className? (line : List Char) : Option (List Char) := between? "class " " \x7b" line

def methodHead? (line : List Char) : Option (List Char × List Char) :=
  named? "    async " ") \x7b" line

/-- The methods in some lines, when the class before them is the one of `contract`. -/
def methodsFrom (contract : String) : List (List Char) → List MethodText
  | [] => []
  | line :: rest =>
    match className? line with
    | some name => methodsFrom (String.ofList name) rest
    | none =>
      match methodHead? line with
      | some (method, args) =>
        ⟨⟨contract, String.ofList method, String.ofList args⟩, rest.head?.map String.ofList⟩ ::
          methodsFrom contract rest
      | none => methodsFrom contract rest

def methods (text : String) : List MethodText := methodsFrom "" (Text.lines text)

def callLine (m : Member) : String := "        return await " ++ m.callExpr ++ "(" ++ m.args ++ ");"

def methodText (b : Binding) (m : Member) : MethodText := ⟨m.callSite b, some (callLine m)⟩

def leads : List String := ["class ", "    async "]

theorem className?_eq_none {line : List Char} (h : StartsWithNone leads line) : className? line = none :=
  between?_eq_none (h _ (by simp [leads]))

theorem methodHead?_eq_none {line : List Char} (h : StartsWithNone leads line) :
    methodHead? line = none := by
  rw [methodHead?, named?, between?_eq_none (h _ (by simp [leads]))]
  rfl

theorem methodsFrom_filler {contract : String} {line : List Char} (h : StartsWithNone leads line)
    (rest : List (List Char)) : methodsFrom contract (line :: rest) = methodsFrom contract rest := by
  simp [methodsFrom, className?_eq_none h, methodHead?_eq_none h]

theorem methodsFrom_fillers {contract : String} {fillers : List (List Char)}
    (h : ∀ line ∈ fillers, StartsWithNone leads line) (rest : List (List Char)) :
    methodsFrom contract (fillers ++ rest) = methodsFrom contract rest := by
  induction fillers with
  | nil => rfl
  | cons line fillers ih =>
    have hline := h line List.mem_cons_self
    rw [List.cons_append, methodsFrom_filler hline, ih fun l hl => h l (List.mem_cons_of_mem line hl)]

theorem startsWithNone_fixed : ∀ l ∈ ["", "    constructor(contract) \x7b",
    "        this.contract = contract;", "    \x7d", "\x7d"], StartsWithNone leads l.toList := by
  decide

theorem methodsFrom_methodLines (b : Binding) {m : Member} (hm : m.IsPlain)
    (rest : List (List Char)) :
    methodsFrom b.name ((methodLines m).map String.toList ++ rest) =
      methodText b m :: methodsFrom b.name rest := by
  have hhead : methodHead? ("    async " ++ m.method ++ "(" ++ m.args ++ ") \x7b").toList =
      some (m.method.toList, m.args.toList) := by
    refine named?_eq_some_iff.mpr ⟨?_, hm.method_ends⟩
    simp
  have hclass : className? ("    async " ++ m.method ++ "(" ++ m.args ++ ") \x7b").toList = none := by
    apply between?_eq_none
    simp only [String.append_assoc, String.toList_append]
    exact dropLead?_eq_none (by decide) (by decide) _
  have hcall : StartsWithNone leads (callLine m).toList := by
    unfold callLine
    rw [String.append_assoc, String.append_assoc, String.append_assoc]
    exact startsWithNone_append "        return await " _ (by decide)
  simp only [methodLines, List.map_cons, List.map_nil, List.cons_append, List.nil_append]
  rw [methodsFrom_filler (startsWithNone_fixed _ (by simp)), methodsFrom, hclass, hhead]
  dsimp only
  rw [show "        return await " ++ m.callExpr ++ "(" ++ m.args ++ ");" = callLine m from rfl,
    methodsFrom_filler hcall, methodsFrom_filler (startsWithNone_fixed _ (by simp))]
  simp [methodText, Member.callSite]

theorem methodsFrom_members (b : Binding) {ms : List Member} (h : ∀ m ∈ ms, m.IsPlain)
    (rest : List (List Char)) :
    methodsFrom b.name ((ms.flatMap methodLines).map String.toList ++ rest) =
      ms.map (methodText b) ++ methodsFrom b.name rest := by
  induction ms with
  | nil => rfl
  | cons m ms ih =>
    have hm := h m List.mem_cons_self
    have hms := ih fun m' hm' => h m' (List.mem_cons_of_mem m hm')
    rw [List.flatMap_cons, List.map_append, List.append_assoc, methodsFrom_methodLines b hm, hms]
    rfl

theorem methodsFrom_classLines (contract : String) {b : Binding} (hb : b.IsPlain)
    (rest : List (List Char)) :
    methodsFrom contract ((classLines b).map String.toList ++ rest) =
      b.members.map (methodText b) ++ methodsFrom b.name rest := by
  have hclass : className? ("class " ++ b.name ++ " \x7b").toList = some b.name.toList := by
    rw [className?, between?_eq_some_iff]
    simp
  have hsplit : (classLines b).map String.toList ++ rest =
      "".toList :: ("class " ++ b.name ++ " \x7b").toList ::
        "    constructor(contract) \x7b".toList :: "        this.contract = contract;".toList ::
        "    \x7d".toList :: ((b.members.flatMap methodLines).map String.toList ++
          ("\x7d".toList :: rest)) := by
    simp [classLines]
  rw [hsplit, methodsFrom_filler (startsWithNone_fixed _ (by simp)), methodsFrom, hclass]
  dsimp only
  rw [String.ofList_toList, methodsFrom_filler (startsWithNone_fixed _ (by simp)),
    methodsFrom_filler (startsWithNone_fixed _ (by simp)),
    methodsFrom_filler (startsWithNone_fixed _ (by simp)),
    methodsFrom_members b hb.members, methodsFrom_filler (startsWithNone_fixed _ (by simp))]

theorem methodsFrom_classes {bindings : List Binding} (h : ∀ b ∈ bindings, b.IsPlain)
    {rest : List (List Char)} (hrest : ∀ line ∈ rest, StartsWithNone leads line) (contract : String) :
    methodsFrom contract ((bindings.flatMap classLines).map String.toList ++ rest) =
      bindings.flatMap fun b => b.members.map (methodText b) := by
  induction bindings generalizing contract with
  | nil =>
    have hnil : methodsFrom contract (rest ++ []) = methodsFrom contract [] :=
      methodsFrom_fillers hrest []
    simpa [methodsFrom] using hnil
  | cons b bindings ih =>
    have hb := h b List.mem_cons_self
    have hbs := ih fun b' hb' => h b' (List.mem_cons_of_mem b hb')
    rw [List.flatMap_cons, List.map_append, List.append_assoc, methodsFrom_classLines contract hb, hbs,
      List.flatMap_cons]

/-! ### The table -/

def literal (table : List (String × Json)) : String :=
  "const contracts = " ++ (Json.obj table).pretty ++ ";"

theorem startsWithNone_of_firstMark {line : List Char}
    (h : ∀ c, Json.firstMark line = some c → c ∈ Json.marks) : StartsWithNone leads line := by
  have hmarks : 'a' ∉ Json.marks ∧ 'c' ∉ Json.marks := by simp [Json.marks, Json.leads]
  intro lead hl
  cases hd : dropLead? lead.toList line with
  | none => rfl
  | some rest =>
    have hline := dropLead?_eq_some_iff.mp hd
    simp only [leads, List.mem_cons, List.not_mem_nil, or_false] at hl
    rcases hl with rfl | rfl
    · exact absurd (h 'c' (by rw [hline]; rfl)) hmarks.2
    · exact absurd (h 'a' (by rw [hline]; rfl)) hmarks.1

/-- **No line of the table is taken for a class or for a method**, whatever it holds. -/
theorem startsWithNone_literal (table : List (String × Json)) :
    ∀ line ∈ Text.lines (literal table), StartsWithNone leads line := by
  have htext : (literal table).toList =
      "const contracts = ".toList ++ ((Json.obj table).pretty.toList ++ [';']) := by
    unfold literal
    rw [String.toList_append, String.toList_append, List.append_assoc]
    rfl
  have hfront : '\n' ∉ "const contracts = ".toList := by decide
  have htidy := Json.tidy_pretty (Json.obj table) hfront
    (Json.tidy_cons (by decide : ';' ≠ '\n') Json.tidy_nil)
  obtain ⟨first, more, hpieces⟩ : ∃ first more, Text.lines (literal table) =
      ("const contracts = ".toList ++ first) :: more := by
    obtain ⟨p, ps, -, happ⟩ := pieces_append_of_not_mem hfront ((Json.obj table).pretty.toList ++ [';'])
    exact ⟨p, ps, by rw [Text.lines, htext, happ]⟩
  intro line hl
  rw [hpieces] at hl
  rcases List.mem_cons.mp hl with rfl | hl
  · rw [← String.toList_ofList (l := first), ← String.toList_append]
    exact startsWithNone_append "const contracts = " _ (by decide)
  · apply startsWithNone_of_firstMark
    apply htidy line
    rw [← htext, show pieces '\n' (literal table).toList = Text.lines (literal table) from rfl, hpieces]
    exact hl

theorem isOneLine_methodLines {m : Member} (hm : m.IsPlain) : ∀ l ∈ methodLines m, IsOneLine l := by
  intro l hl
  simp only [methodLines, List.mem_cons, List.not_mem_nil, or_false] at hl
  rcases hl with rfl | rfl | rfl | rfl
  · decide
  · simp only [isOneLine_append, hm.method, hm.args, and_true]
    decide
  · simp only [isOneLine_append, hm.callExpr, hm.args, and_true]
    decide
  · decide

theorem isOneLine_classLines {b : Binding} (hb : b.IsPlain) : ∀ l ∈ classLines b, IsOneLine l := by
  have hfixed : ∀ l ∈ ["", "    constructor(contract) \x7b", "        this.contract = contract;",
      "    \x7d", "\x7d"], IsOneLine l := by decide
  intro l hl
  simp only [classLines, List.mem_append, List.mem_cons, List.not_mem_nil, or_false,
    List.mem_flatMap] at hl
  rcases hl with ((rfl | rfl | rfl | rfl | rfl) | ⟨m, hm, hl⟩) | rfl
  · exact hfixed _ (by simp)
  · simp only [isOneLine_append, isOneLine_of_isIdentifier hb.name, and_true]
    decide
  · exact hfixed _ (by simp)
  · exact hfixed _ (by simp)
  · exact hfixed _ (by simp)
  · exact isOneLine_methodLines (hb.members m hm) l hl
  · exact hfixed _ (by simp)

/-- **A client module is read back as the members it was rendered from.** -/
theorem methods_render {bindings : List Binding} (h : ∀ b ∈ bindings, b.IsPlain) {source : String}
    (hs : IsOneLine source) (table : List (String × Json)) :
    methods (linesText (Client.lines table bindings source)) =
      bindings.flatMap fun b => b.members.map (methodText b) := by
  have hexport : IsOneLine ("export \x7b " ++ exports bindings ++ " \x7d;") := by
    simp only [isOneLine_append, isOneLine_exports h, and_true]
    decide
  have hclasses : ∀ l ∈ bindings.flatMap classLines, IsOneLine l := by
    intro l hl
    obtain ⟨b, hb, hl⟩ := List.mem_flatMap.mp hl
    exact isOneLine_classLines (h b hb) l hl
  have hlines : Text.lines (linesText (Client.lines table bindings source)) =
      (generatedNote source).toList :: (Text.lines (literal table) ++
        ((bindings.flatMap classLines).map String.toList ++
          ["".toList, ("export \x7b " ++ exports bindings ++ " \x7d;").toList, []])) := by
    rw [lines_linesText]
    unfold Client.lines
    simp only [List.flatMap_append, List.flatMap_cons, List.flatMap_nil, lines_of_isOneLine (isOneLine_generatedNote hs),
      lines_of_isOneLine hexport, lines_linesText_of_isOneLine hclasses,
      lines_of_isOneLine (show IsOneLine "" by decide), List.append_assoc, List.cons_append,
      List.nil_append]
    rfl
  have hfirst : StartsWithNone leads (generatedNote source).toList := by
    unfold generatedNote
    rw [String.append_assoc]
    exact startsWithNone_append "// Generated by sol2js from " _ (by decide)
  have hrest : ∀ line ∈ ["".toList, ("export \x7b " ++ exports bindings ++ " \x7d;").toList, []],
      StartsWithNone leads line := by
    intro line hl
    simp only [List.mem_cons, List.not_mem_nil, or_false] at hl
    rcases hl with rfl | rfl | rfl
    · exact startsWithNone_fixed "" (by simp)
    · rw [String.append_assoc]
      exact startsWithNone_append "export \x7b " _ (by decide)
    · exact startsWithNone_fixed "" (by simp)
  rw [methods, hlines, methodsFrom_filler hfirst, methodsFrom_fillers (startsWithNone_literal table),
    methodsFrom_classes h hrest]

end Client

end ContractBindings

import Clarion.Proofs.DataHomes
import Clarion.Proofs.Parentheses
import Clarion.Proofs.SymbolSpans
import Clarion.Proofs.Trimming

/-! Text put together from tokens. A token adds at most a blank and its own text, and nothing that
stands there already changes; so the text says what the tokens say, and the text of the first tokens
starts the text of all. The type of declared data is the text of the first tokens of its declaration,
those up to a comma, and its detail is the text of all of them. -/
namespace Clarion

/-- The token has a part in the text: it is neither a comment nor a continuation mark. -/
def Token.isShown (token : Token) : Bool :=
  !(token.isComment || token.isContinuation)

namespace Tokens

open Text

variable {tokens part : Tokens}

/-- What the tokens say: the characters of those that have a part in the text. -/
def wording (tokens : Tokens) : List Char :=
  (tokens.filter Token.isShown).flatMap (·.value.toList)

theorem wording_cons (token : Token) (rest : Tokens) :
    wording (token :: rest) = wording [token] ++ rest.wording := by
  cases shown : token.isShown <;> simp [wording, shown]

/-- A token adds what it says, and blanks. -/
theorem push_text (assembly : Assembly) (token : Token) :
    ∃ added, (assembly.push token).text = assembly.text ++ added ∧
      withoutBlanks added = withoutBlanks (wording [token]) := by
  rw [Assembly.push]
  cases dropped : (token.isComment || token.isContinuation) with
  | true =>
    have hidden : token.isShown = false := by simp only [Token.isShown, dropped, Bool.not_true]
    refine ⟨[], (List.append_nil _).symm, ?_⟩
    simp [wording, hidden]
  | false =>
    have shown : token.isShown = true := by simp only [Token.isShown, dropped, Bool.not_false]
    have own : wording [token] = token.value.toList := by simp [wording, shown]
    refine ⟨_, List.append_assoc .., ?_⟩
    rw [own, withoutBlanks_append]
    -- Between the texts stands one blank, or nothing.
    split
    · rfl
    · rfl

/-- Tokens add what they say, and blanks. -/
theorem foldl_push_text (tokens : Tokens) (assembly : Assembly) :
    ∃ added, (tokens.foldl Assembly.push assembly).text = assembly.text ++ added ∧
      withoutBlanks added = withoutBlanks tokens.wording := by
  induction tokens generalizing assembly with
  | nil => exact ⟨[], (List.append_nil _).symm, rfl⟩
  | cons token rest ih =>
    obtain ⟨first, pushed, same⟩ := push_text assembly token
    obtain ⟨later, text, sameLater⟩ := ih (assembly.push token)
    refine ⟨first ++ later, ?_, ?_⟩
    · rw [List.foldl_cons, text, pushed, List.append_assoc]
    · rw [wording_cons, withoutBlanks_append, withoutBlanks_append, same, sameLater]

/-- The text says what the tokens say. -/
theorem withoutBlanks_render (tokens : Tokens) :
    withoutBlanks tokens.render.toList = withoutBlanks tokens.wording := by
  obtain ⟨added, text, same⟩ := foldl_push_text tokens {}
  rw [render, String.toList_ofList, withoutBlanks_trimChars, text, List.nil_append, same]

/-- The text of the first tokens starts the text of all. -/
theorem render_append_prefix (front back : Tokens) :
    front.render.toList <+: (render (front ++ back)).toList := by
  obtain ⟨added, text, -⟩ := foldl_push_text back (front.foldl Assembly.push {})
  rw [render, render, String.toList_ofList, String.toList_ofList, List.foldl_append, text]
  exact trimChars_append_prefix ..

/-- The first part between commas is what the tokens start with. -/
theorem head?_splitTopLevelCommas (first : tokens.splitTopLevelCommas.head? = some part) :
    part <+: tokens := by
  obtain ⟨parts, split⟩ := List.head?_eq_some_iff.mp first
  have whole : interleave tokens.splitTopLevelCommas tokens.topCommas = tokens :=
    (interleave_splitCommasFrom [] tokens).2
  rw [split] at whole
  cases commas : tokens.topCommas with
  | nil =>
    rw [commas] at whole
    exact ⟨[], (List.append_nil part).trans whole⟩
  | cons comma others =>
    rw [commas] at whole
    exact ⟨_, whole⟩

theorem render_head_prefix (tokens : Tokens) :
    ((tokens.splitTopLevelCommas.head?.map render).getD "").toList <+: tokens.render.toList := by
  cases first : tokens.splitTopLevelCommas.head? with
  | none => exact List.nil_prefix
  | some part =>
    obtain ⟨rest, whole⟩ := head?_splitTopLevelCommas first
    have starts := render_append_prefix part rest
    rwa [whole] at starts

end Tokens

namespace Outline

variable {tokens : Tokens} {index : Nat} {token : Token} {info : Info}

/-! ### Types of data -/

/-- A symbol of data has a type, and its detail starts with the type of a symbol. -/
structure Info.TypeLeads (info : Info) : Prop where
  typed : info.kind = .variableDecl ∨ info.kind = .property ∨ info.traits.dataName.isSome →
    info.traits.dataType.isSome
  leads : ∀ dataType ∈ info.traits.dataType, dataType.toList <+: info.detail.toList

theorem Info.TypeLeads.of_type {dataType : String} (typed : info.traits.dataType = some dataType)
    (leads : dataType.toList <+: info.detail.toList) : info.TypeLeads := by
  constructor
  · intro _
    rw [typed]
    rfl
  · intro other member
    cases typed.symm.trans member
    exact leads

theorem Info.TypeLeads.of_noData
    (noData : info.kind ≠ .variableDecl ∧ info.kind ≠ .property)
    (untyped : info.traits.dataName = none ∧ info.traits.dataType = none) : info.TypeLeads := by
  constructor
  · rintro (isVariable | isProperty | named)
    · exact absurd isVariable noData.1
    · exact absurd isProperty noData.2
    · rw [untyped.1] at named
      cases named
  · intro dataType member
    cases untyped.2.symm.trans member

theorem Kind.not_data_of_opensScope {kind : Kind} (opens : kind.opensScope) :
    kind ≠ .variableDecl ∧ kind ≠ .property := by
  constructor
  · rintro rfl
    cases opens
  · rintro rfl
    cases opens

namespace State

theorem Makes.typeLeads (makes : Makes tokens index token info) : info.TypeLeads := by
  cases makes with
  | dataSymbol labelled isData references => exact .of_type rfl (Tokens.render_head_prefix _)
  | memoSymbol inside => exact .of_type rfl (List.prefix_refl _)
  | structureSymbol word =>
    have opens := Kind.ofStructureWord_opens token.value
    exact .of_noData (Kind.not_data_of_opensScope opens) ⟨rfl, rfl⟩
  | prototypeSymbol callable name isMethod isMap =>
    have opens := Kind.callable_opens callable
    exact .of_noData (Kind.not_data_of_opensScope opens) ⟨rfl, rfl⟩
  | _ => exact .of_noData ⟨nofun, nofun⟩ ⟨rfl, rfl⟩

theorem Makeable.typeLeads (made : Makeable tokens info) : info.TypeLeads := by
  cases made with
  | symbol makes => exact makes.typeLeads
  | group kind traits =>
    refine .of_noData ?_ ?_
    · rw [kind]
      exact ⟨nofun, nofun⟩
    · rw [traits]
      exact ⟨rfl, rfl⟩
  | method => exact .of_noData ⟨nofun, nofun⟩ ⟨rfl, rfl⟩
  | undeclaredClass => exact .of_noData ⟨nofun, nofun⟩ ⟨rfl, rfl⟩

end State

/-- Every symbol of an outline shows a node, up to its span and its place among siblings. -/
theorem Symbol.Occurs.exists_node {symbol : Symbol} (occurs : Occurs (ofTokens tokens) symbol) :
    ∃ id node, (State.finished tokens).node? id = some node ∧
      symbol.info =
        { node.info with range := symbol.info.range, sortText := symbol.info.sortText } := by
  obtain ⟨forest, isForest⟩ := (State.arranged_finished tokens).exists_forest
  obtain ⟨tree, inside, rfl⟩ := isForest.shows_symbol occurs
  obtain ⟨node, found, info, -⟩ := (isForest.shows tree inside).node
  rw [Numbered.symbol_info]
  exact ⟨tree.id, node, found, info⟩

/-- In an outline the detail of a symbol starts with its type. -/
theorem Symbol.Occurs.typeLeads {symbol : Symbol} (occurs : Occurs (ofTokens tokens) symbol) :
    symbol.info.TypeLeads := by
  obtain ⟨id, node, found, shown⟩ := occurs.exists_node
  obtain ⟨info, made, same⟩ := State.exists_info found
  have leads := made.typeLeads
  rw [shown, same]
  exact ⟨leads.typed, leads.leads⟩

/-- Rendering keeps the text. Blanks apart, the text of tokens is that of the tokens that are neither
comments nor continuation marks, one after the other; with more tokens behind them, it is what the
text starts with. So in every outline the detail of a symbol starts with its type, and declared data
has one. -/
theorem rendering_keeps_text (tokens : Tokens) :
    Text.withoutBlanks tokens.render.toList =
      Text.withoutBlanks ((tokens.filter Token.isShown).flatMap (·.value.toList)) ∧
    (∀ more, tokens.render.toList <+: (Tokens.render (tokens ++ more)).toList) ∧
    ∀ symbol, Symbol.Occurs (ofTokens tokens) symbol → symbol.info.TypeLeads := by
  refine ⟨tokens.withoutBlanks_render, fun more => ?_, fun symbol occurs => ?_⟩
  · exact tokens.render_append_prefix more
  · exact occurs.typeLeads

/-- A declaration that goes on in the next line, with a comment in between. -/
def continuedDeclaration : Tokens :=
  [{ kind := .label, value := "Name", line := 0, start := 0 },
    { kind := .typeName, value := "STRING", line := 0, start := 6 },
    { kind := .delimiter, value := "(", line := 0, start := 12 },
    { kind := .number, value := "20", line := 0, start := 13 },
    { kind := .delimiter, value := ")", line := 0, start := 15 },
    { kind := .delimiter, value := ",", line := 0, start := 16 },
    { kind := .lineContinuation, value := "|", line := 0, start := 18 },
    { kind := .comment, value := "! cleared on entry", line := 0, start := 20 },
    { kind := .attributeWord, value := "AUTO", line := 1, start := 6 }]

theorem continuedDeclaration_shows_type :
    ∃ symbol, Symbol.Occurs (ofTokens continuedDeclaration) symbol ∧
      symbol.info.detail = "STRING(20), AUTO" ∧
      symbol.info.traits.dataType = some "STRING(20)" ∧ symbol.info.TypeLeads := by
  have shown : (ofTokens continuedDeclaration).any fun symbol =>
      symbol.info.detail == "STRING(20), AUTO" &&
        symbol.info.traits.dataType == some "STRING(20)" := by
    decide +kernel
  obtain ⟨symbol, member, reads⟩ := List.any_eq_true.mp shown
  obtain ⟨detail, dataType⟩ := Bool.and_eq_true_iff.mp reads
  have leads := (rendering_keeps_text continuedDeclaration).2.2 symbol (.root member)
  exact ⟨symbol, .root member, beq_iff_eq.mp detail, beq_iff_eq.mp dataType, leads⟩

end Outline
end Clarion

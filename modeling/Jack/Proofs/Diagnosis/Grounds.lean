import Jack.Proofs.EarliestError
import Jack.Proofs.Partition
import Jack.Proofs.Scanning

namespace Jack

/-- A name that is declared behind terminals, and what its scope declares before it. If symbols
alone close the class behind the name, its declaration is the last one of the scope. -/
inductive DeclaresNext (before : List Terminal) : List Declaration → Declaration → Prop
  | ofClass {declared : List Declaration} {new : Declaration} (tree : ClassTree)
      (closing : List Symbol) (alone : tree.subroutines = [])
      (declares : tree.declarations = declared ++ [new])
      (spelt : tree.yield = before ++ .name new.name :: closing.map .symbol) :
      DeclaresNext before declared new
  | ofSubroutine {earlier : List Subroutine} {subroutine : Subroutine}
      {declared : List Declaration} {new : Declaration} (tree : ClassTree) (closing : List Symbol)
      (last : tree.subroutines = earlier ++ [subroutine]) (empty : subroutine.body = .done)
      (declares : subroutine.declarations tree.name = declared ++ [new])
      (spelt : tree.yield = before ++ .name new.name :: closing.map .symbol) :
      DeclaresNext before declared new

/-- Terminals that stand among the statements of the last subroutine of a class, and go on to the
brace that closes it. All that the class and this subroutine declare stands before them. -/
structure InBody (tree : ClassTree) (subroutine : Subroutine) (before ahead : List Terminal) :
    Prop where
  last : ∃ earlier, tree.subroutines = earlier ++ [subroutine]
  body : ∃ inner, subroutine.body.yield = inner ++ ahead
  spelt : tree.yield = before ++ (ahead ++ [.symbol .rightBrace, .symbol .rightBrace])

/-- Whether a name between tokens of a body stands for a variable: as the target of an assignment,
or in a term where no call begins. -/
def IsVariable (before after : List Token) : Prop :=
  (∃ word ∈ before.getLast?, word.kind = .keyword .kwLet) ∨
    (∀ last ∈ before.getLast?, last.kind ∉ [.keyword .kwLet, .keyword .kwDo, .symbol .dot]) ∧
      ∀ next ∈ after.head?, next.kind ∉ [.symbol .leftParen, .symbol .dot]

/-- The name with a dot at the end of the tokens in front of a name that is called. -/
def qualifier? (before : List Token) : Option String :=
  match before.reverse with
  | dot :: name :: _ => if dot.kind = .symbol .dot then some name.lexeme else none
  | _ => none

/-- The errors that are true of the tokens of a class. Each of them names one of the tokens, and
gives its line. -/
inductive Diagnoses (limit : Nat) (tokens : List Token) : CompileError → Prop
  | unexpected {error : SyntaxError} {place : Nat} (reports : error.Reports tokens place) :
      Diagnoses limit tokens (.unexpected error)
  | redefined {before after : List Token} {name : Token} {declared : List Declaration}
      {new : Declaration} (whole : tokens = before ++ name :: after)
      (isName : name.kind = .identifier) (notThis : name.lexeme ≠ "this")
      (declares : DeclaresNext (before.map Token.terminal) declared new)
      (isNew : new.name = name.lexeme) (known : name.lexeme ∈ declared.map Declaration.name) :
      Diagnoses limit tokens (.declaration name.line (.redefined name.lexeme))
  | tooMany {before after : List Token} {name : Token} {declared : List Declaration}
      {new : Declaration} (whole : tokens = before ++ name :: after)
      (isName : name.kind = .identifier)
      (declares : DeclaresNext (before.map Token.terminal) declared new)
      (isNew : new.name = name.lexeme) (fresh : name.lexeme ∉ declared.map Declaration.name)
      (full : Declaration.count new.kind declared = 65535) :
      Diagnoses limit tokens (.declaration name.line (.tooMany name.lexeme new.kind))
  | undefined {before after : List Token} {name : Token} {tree : ClassTree}
      {subroutine : Subroutine} {more : List Terminal} (whole : tokens = before ++ name :: after)
      (isName : name.kind = .identifier) (isVariable : IsVariable before after)
      (inBody : InBody tree subroutine (before.map Token.terminal) (.name name.lexeme :: more))
      (absent : subroutine.declares tree.name tree.declarations name.lexeme = false) :
      Diagnoses limit tokens (.undefined name.line name.lexeme)
  | integer {constant : Token} (member : constant ∈ tokens) (isInteger : constant.kind = .integer)
      (large : 32767 < Nat.ofDigitChars 10 constant.lexeme.toList 0) :
      Diagnoses limit tokens (.constantRange constant.line constant.lexeme)
  | string {constant : Token} {text : String} (member : constant ∈ tokens)
      (isString : constant.kind = .string) (holds : constant.literal = some (.text text))
      (large : 32767 < text.length ∨ ∃ c ∈ text.toList, 32767 < c.toNat) :
      Diagnoses limit tokens (.constantRange constant.line constant.lexeme)
  | tooManyArguments {before listed after : List Token} {callee opening : Token} {tree : ClassTree}
      {subroutine : Subroutine} {arguments : Arguments} {more : List Terminal}
      (whole : tokens = before ++ callee :: opening :: (listed ++ after))
      (isName : callee.kind = .identifier) (isOpening : opening.kind = .symbol .leftParen)
      (isListed : listed.map Token.terminal = arguments.yield)
      (inBody : InBody tree subroutine (before.map Token.terminal)
        (.name callee.lexeme :: .symbol .leftParen :: (arguments.yield ++ more)))
      (many : 65535 < receivers (subroutine.declares tree.name tree.declarations)
        (qualifier? before) + arguments.length) :
      Diagnoses limit tokens (.tooManyArguments callee.line callee.lexeme)
  | nestingTooDeep {token : Token} (member : token ∈ tokens) :
      Diagnoses limit tokens (.nestingTooDeep token.line limit)

theorem Diagnoses.ne_this {limit line : Nat} {tokens : List Token} {name : String}
    (diagnoses : Diagnoses limit tokens (.declaration line (.redefined name))) :
    name ≠ "this" := by
  cases diagnoses with
  | redefined _ _ notThis => exact notThis

/-- A class without the brace that closes it. -/
def ClassTree.front (tree : ClassTree) : List Terminal :=
  .keyword .kwClass :: .name tree.name :: .symbol .leftBrace ::
    (tree.classVariables.flatMap ClassVariables.yield ++
      tree.subroutines.flatMap Subroutine.yield)

theorem ClassTree.yield_eq_front (tree : ClassTree) :
    tree.yield = tree.front ++ [.symbol .rightBrace] := by
  simp [yield, front]

/-- A class with one subroutine more. -/
def ClassTree.add (tree : ClassTree) (subroutine : Subroutine) : ClassTree :=
  { tree with subroutines := tree.subroutines ++ [subroutine] }

theorem ClassTree.front_add (tree : ClassTree) (subroutine : Subroutine) :
    (tree.add subroutine).front = tree.front ++ subroutine.yield := by
  simp [front, add]

/-- A subroutine up to its statements. -/
def Subroutine.header (subroutine : Subroutine) : List Terminal :=
  .keyword subroutine.kind.word :: TypeName.terminalOrVoid subroutine.result ::
    .name subroutine.name :: .symbol .leftParen ::
    (Parameter.yieldAll subroutine.parameters ++ .symbol .rightParen :: .symbol .leftBrace ::
      subroutine.locals.flatMap fun names => .keyword .kwVar :: names.yield)

theorem Subroutine.yield_eq_header (subroutine : Subroutine) :
    subroutine.yield = subroutine.header ++ (subroutine.body.yield ++ [.symbol .rightBrace]) := by
  simp [yield, header]

theorem InBody.of_split (tree : ClassTree) (subroutine : Subroutine) {body : Statements}
    {inner ahead : List Terminal} (split : body.yield = inner ++ ahead) :
    InBody (tree.add { subroutine with body }) { subroutine with body }
      (tree.front ++ subroutine.header ++ inner) ahead where
  last := ⟨tree.subroutines, rfl⟩
  body := ⟨inner, split⟩
  spelt := by
    rw [ClassTree.yield_eq_front, ClassTree.front_add, Subroutine.yield_eq_header, split]
    simp [Subroutine.header]

/-- What is known of a token that comes from a source text. -/
structure Token.Scanned (token : Token) : Prop where
  wellSpelt : token.WellSpelt
  isName : token.kind = .identifier → ∀ word : Keyword, token.lexeme ≠ word.text
  isInteger : token.kind = .integer → token.literal.bind Literal.number? =
    if Nat.ofDigitChars 10 token.lexeme.toList 0 ≤ 65535 then
      some (Nat.ofDigitChars 10 token.lexeme.toList 0)
    else none
  isString : token.kind = .string → ∃ text, token.literal = some (.text text)

theorem Piece.Reads.scanned {piece : Piece} {kind : Token.Kind} {literal : Option Literal}
    (reads : piece.Reads kind literal) (place : Position) :
    (Token.at place kind literal piece.text).Scanned := by
  have lexeme : (Token.at place kind literal piece.text).lexeme.toList = piece.text :=
    String.toList_ofList
  refine ⟨fun word is => ?_, fun is word same => ?_, fun is => ?_, fun is => ?_⟩
  · cases reads <;> cases is
    exact String.ofList_toList
  · cases reads <;> cases is
    rename_i notKeyword
    exact notKeyword word (by rw [← same, lexeme]; rfl)
  · rw [lexeme]
    cases reads <;> cases is
    · rename_i fits
      exact (if_pos fits).symm
    · rename_i exceeds
      exact (if_neg (Nat.not_le.2 exceeds)).symm
  · cases reads <;> cases is <;> exact ⟨_, rfl⟩

theorem Scans.scanned {place : Position} {text : List Char} {tokens : List Token}
    {warnings : List Warning} (scans : Scans place text tokens warnings) :
    ∀ token ∈ tokens, token.Scanned := by
  induction scans with
  | nothing => exact List.forall_mem_nil _
  | skip _ _ _ ih => exact ih
  | token reads _ _ ih => exact List.forall_mem_cons.2 ⟨reads.scanned _, ih⟩

theorem Finding.scanned_ofSource (source : String) :
    ∀ token ∈ tokens (ofSource source), token.Scanned :=
  (Scans.of_cut .start source.toList).scanned

end Jack

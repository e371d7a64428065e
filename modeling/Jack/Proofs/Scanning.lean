import Jack.Proofs.Syntax
import Jack.Token.Finding

namespace Jack

theorem Keyword.text_of_ofText? {text : String} {word : Keyword}
    (found : ofText? text = some word) : word.text = text := by
  simpa using List.find?_some found

namespace Finding

/-- A piece that reads as a keyword is written as this keyword. -/
theorem wellSpelt_of_ofPiece {place : Position} {piece : Piece} {token : Token}
    (member : .token token ∈ ofPiece place piece) : token.WellSpelt := by
  intro word isKeyword
  cases piece with
  | word letters =>
    obtain rfl := Finding.token.inj (List.mem_singleton.1 member)
    simp only [Token.at] at isKeyword
    split at isKeyword
    · cases isKeyword
      exact (Keyword.text_of_ofText? ‹_›).symm
    · cases isKeyword
  | number _ | closedString _ | symbol _ =>
    obtain rfl := Finding.token.inj (List.mem_singleton.1 member)
    cases isKeyword
  | openString _ =>
    have behind := (List.mem_cons.1 member).resolve_left Finding.noConfusion
    obtain rfl := Finding.token.inj (List.mem_singleton.1 behind)
    cases isKeyword
  | blank _ | lineComment _ | blockComment _ | openComment _ | stray _ =>
    simp [ofPiece] at member

theorem wellSpelt_of_ofPieces {pieces : List Piece} {place : Position} {token : Token}
    (member : .token token ∈ ofPieces place pieces) : token.WellSpelt := by
  induction pieces generalizing place with
  | nil => simp [ofPieces, ofPiecesOnto] at member
  | cons piece pieces ih =>
    rw [ofPieces_cons, List.mem_append] at member
    exact member.elim wellSpelt_of_ofPiece ih

theorem wellSpelt_of_ofSource {source : String} :
    ∀ token ∈ tokens (ofSource source), token.WellSpelt := by
  intro token member
  obtain ⟨finding, isFound, isToken⟩ := List.mem_filterMap.1 member
  cases finding with
  | token found =>
    cases isToken
    exact wellSpelt_of_ofPieces isFound
  | warning warning => cases isToken

end Finding

end Jack

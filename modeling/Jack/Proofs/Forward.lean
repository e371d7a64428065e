import Jack.Proofs.EarliestError

namespace Jack

/-- What can be asked of a stream. -/
inductive StreamRequest where
  | atEnd
  | previous
  | peek
  | peekKind
  | check (kind : Token.Kind)
  | accept (kind : Token.Kind)
  | next
  | consume (kind : Token.Kind)
  | consumeAny (kinds : List Token.Kind)
  | unexpected (expected : String)
deriving DecidableEq, Repr

inductive StreamReply where
  | truth (holds : Bool)
  | token (token : Option Token)
  | kind (kind : Option Token.Kind)
  | taken (result : Except SyntaxError Token)
  | error (error : SyntaxError)
deriving DecidableEq

namespace TokenStream

/-- A token that may have been taken from a stream. -/
def replied (stream : TokenStream) :
    Except SyntaxError (Token × TokenStream) → StreamReply × TokenStream
  | .ok (token, later) => (.taken (.ok token), later)
  | .error error => (.taken (.error error), stream)

def perform (stream : TokenStream) : StreamRequest → StreamReply × TokenStream
  | .atEnd => (.truth stream.atEnd, stream)
  | .previous => (.token stream.previous?, stream)
  | .peek => (.token stream.peek?, stream)
  | .peekKind => (.kind stream.peekKind?, stream)
  | .check kind => (.truth (stream.check kind), stream)
  | .accept kind => (.truth (stream.accept kind).1, (stream.accept kind).2)
  | .next =>
    match stream.next? with
    | some (token, later) => (.token (some token), later)
    | none => (.token none, stream)
  | .consume kind => stream.replied (stream.consume kind)
  | .consumeAny kinds => stream.replied (stream.consumeAny kinds)
  | .unexpected expected => (.error (stream.unexpected expected), stream)

/-- The replies to some requests, and the stream in the end. -/
def run (stream : TokenStream) : List StreamRequest → List StreamReply × TokenStream
  | [] => ([], stream)
  | request :: requests =>
    ((stream.perform request).1 :: ((stream.perform request).2.run requests).1,
      ((stream.perform request).2.run requests).2)

/-- The token that a request takes, if it is one that takes tokens and it succeeds. -/
def takes? (stream : TokenStream) (request : StreamRequest) : Option Token :=
  match request, (stream.perform request).1 with
  | .accept _, .truth true => stream.peek?
  | .next, .token token => token
  | .consume _, .taken (.ok token) => some token
  | .consumeAny _, .taken (.ok token) => some token
  | _, _ => none

/-- All tokens that some requests take, in order. -/
def takesAll (stream : TokenStream) : List StreamRequest → List Token
  | [] => []
  | request :: requests =>
    (stream.takes? request).toList ++ (stream.perform request).2.takesAll requests

/-- The number of tokens that are taken. -/
def place (stream : TokenStream) : Nat :=
  stream.taken.length

/-- A stream of tokens of which so many are taken. -/
def ofPlace (tokens : List Token) (place : Nat) : TokenStream :=
  ⟨(tokens.take place).reverse, tokens.drop place⟩

end TokenStream

/-- The reply to a request where so many of some tokens are taken, and how many are taken then. -/
inductive StreamLaw (tokens : List Token) (place : Nat) : StreamRequest → StreamReply → Nat → Prop
  | atEnd : StreamLaw tokens place .atEnd (.truth (place == tokens.length)) place
  | previous : StreamLaw tokens place .previous (.token (tokens.take place).getLast?) place
  | peek : StreamLaw tokens place .peek (.token tokens[place]?) place
  | peekKind : StreamLaw tokens place .peekKind (.kind (tokens[place]?.map Token.kind)) place
  | check (kind : Token.Kind) :
      StreamLaw tokens place (.check kind) (.truth (tokens[place]?.map Token.kind == some kind))
        place
  | accepts {token : Token} (isNext : tokens[place]? = some token) :
      StreamLaw tokens place (.accept token.kind) (.truth true) (place + 1)
  | declines {kind : Token.Kind} (other : ∀ token ∈ tokens[place]?, token.kind ≠ kind) :
      StreamLaw tokens place (.accept kind) (.truth false) place
  | next {token : Token} (isNext : tokens[place]? = some token) :
      StreamLaw tokens place .next (.token (some token)) (place + 1)
  | ended (ended : tokens[place]? = none) : StreamLaw tokens place .next (.token none) place
  | consumes {token : Token} (isNext : tokens[place]? = some token) :
      StreamLaw tokens place (.consume token.kind) (.taken (.ok token)) (place + 1)
  | refuses {kind : Token.Kind} {error : SyntaxError}
      (other : ∀ token ∈ tokens[place]?, token.kind ≠ kind) (reports : error.Reports tokens place)
      (expected : error.expected = kind.describe) :
      StreamLaw tokens place (.consume kind) (.taken (.error error)) place
  | consumesAny {token : Token} {kinds : List Token.Kind} (isNext : tokens[place]? = some token)
      (isOne : token.kind ∈ kinds) :
      StreamLaw tokens place (.consumeAny kinds) (.taken (.ok token)) (place + 1)
  | refusesAny {kinds : List Token.Kind} {error : SyntaxError}
      (others : ∀ token ∈ tokens[place]?, token.kind ∉ kinds)
      (reports : error.Reports tokens place)
      (expected : error.expected = Token.Kind.describeAny kinds) :
      StreamLaw tokens place (.consumeAny kinds) (.taken (.error error)) place
  | unexpected {error : SyntaxError} (reports : error.Reports tokens place) :
      StreamLaw tokens place (.unexpected error.expected) (.error error) place

/-- The replies to some requests, where each of them is answered by this law. -/
inductive StreamTrace (tokens : List Token) :
    Nat → List StreamRequest → List StreamReply → Nat → Prop
  | done (place : Nat) : StreamTrace tokens place [] [] place
  | step {place next last : Nat} {request : StreamRequest} {reply : StreamReply}
      {requests : List StreamRequest} {replies : List StreamReply}
      (law : StreamLaw tokens place request reply next)
      (further : StreamTrace tokens next requests replies last) :
      StreamTrace tokens place (request :: requests) (reply :: replies) last

namespace TokenStream

variable {tokens : List Token} {place : Nat}

theorem ofTokens_eq (tokens : List Token) : ofTokens tokens = ofPlace tokens 0 :=
  rfl

theorem place_ofPlace (within : place ≤ tokens.length) : (ofPlace tokens place).place = place := by
  rw [TokenStream.place, ofPlace, List.length_reverse, List.length_take, Nat.min_eq_left within]

theorem peek?_ofPlace : (ofPlace tokens place).peek? = tokens[place]? := by
  rw [peek?, ofPlace, List.head?_drop]

theorem previous?_ofPlace : (ofPlace tokens place).previous? = (tokens.take place).getLast? := by
  rw [previous?, ofPlace, List.head?_reverse]

theorem peekKind?_ofPlace :
    (ofPlace tokens place).peekKind? = tokens[place]?.map Token.kind := by
  rw [peekKind?, peek?_ofPlace]

theorem check_ofPlace (kind : Token.Kind) :
    (ofPlace tokens place).check kind = (tokens[place]?.map Token.kind == some kind) := by
  rw [check, peekKind?_ofPlace]

theorem atEnd_ofPlace (within : place ≤ tokens.length) :
    (ofPlace tokens place).atEnd = (place == tokens.length) := by
  rw [atEnd, ofPlace, Bool.eq_iff_iff, List.isEmpty_iff, List.drop_eq_nil_iff, beq_iff_eq]
  omega

/-- The next token is taken, and the stream goes on behind it. -/
theorem next?_ofPlace :
    (ofPlace tokens place).next? =
      tokens[place]?.map fun token => (token, ofPlace tokens (place + 1)) := by
  unfold next?
  cases isNext : tokens[place]? with
  | none =>
    have ended : (ofPlace tokens place).rest = [] :=
      List.drop_eq_nil_iff.2 (List.getElem?_eq_none_iff.1 isNext)
    rw [ended]
    rfl
  | some token =>
    obtain ⟨within, isToken⟩ := List.getElem?_eq_some_iff.1 isNext
    have rest : (ofPlace tokens place).rest = token :: tokens.drop (place + 1) := by
      rw [ofPlace, List.drop_eq_getElem_cons within, isToken]
    have taken : token :: (tokens.take place).reverse = (tokens.take (place + 1)).reverse := by
      rw [List.take_add_one, isNext, List.reverse_append]
      rfl
    rw [rest]
    exact congrArg (fun taken => some (token, TokenStream.mk taken _)) taken

theorem reports_ofPlace (within : place ≤ tokens.length) (expected : String) :
    ((ofPlace tokens place).unexpected expected).Reports tokens place := by
  have reports := reports_unexpected (tokens.take place).reverse (tokens.drop place) expected
  rwa [List.reverse_reverse, List.take_append_drop, List.length_reverse, List.length_take,
    Nat.min_eq_left within] at reports

/-- How a request is answered where so many tokens are taken: it takes none and leaves the stream as
it is, or it takes the next one. -/
inductive StepsForward (tokens : List Token) (place : Nat) (request : StreamRequest) : Prop
  | stays (same : ((ofPlace tokens place).perform request).2 = ofPlace tokens place)
      (law : StreamLaw tokens place request ((ofPlace tokens place).perform request).1 place)
      (none : (ofPlace tokens place).takes? request = none)
  | takes {token : Token} (isNext : tokens[place]? = some token)
      (moved : ((ofPlace tokens place).perform request).2 = ofPlace tokens (place + 1))
      (law : StreamLaw tokens place request ((ofPlace tokens place).perform request).1 (place + 1))
      (takes : (ofPlace tokens place).takes? request = some token)

theorem StepsForward.of_stays {request : StreamRequest} {reply : StreamReply}
    (performed : (ofPlace tokens place).perform request = (reply, ofPlace tokens place))
    (law : StreamLaw tokens place request reply place)
    (none : (ofPlace tokens place).takes? request = none) : StepsForward tokens place request :=
  .stays (congrArg Prod.snd performed) (by rwa [performed]) none

theorem StepsForward.of_takes {request : StreamRequest} {reply : StreamReply} {token : Token}
    (isNext : tokens[place]? = some token)
    (performed : (ofPlace tokens place).perform request = (reply, ofPlace tokens (place + 1)))
    (law : StreamLaw tokens place request reply (place + 1))
    (takes : (ofPlace tokens place).takes? request = some token) :
    StepsForward tokens place request :=
  .takes isNext (congrArg Prod.snd performed) (by rwa [performed]) takes

theorem stepsForward_accept (kind : Token.Kind) : StepsForward tokens place (.accept kind) := by
  by_cases isKind : tokens[place]?.map Token.kind = some kind
  · obtain ⟨token, isNext, rfl⟩ := Option.map_eq_some_iff.1 isKind
    have performed : (ofPlace tokens place).perform (.accept token.kind) =
        (.truth true, ofPlace tokens (place + 1)) := by
      simp [perform, accept, check_ofPlace, advance, next?_ofPlace, isNext]
    exact .of_takes isNext performed (.accepts isNext)
      (by simp [takes?, performed, peek?_ofPlace, isNext])
  · have performed : (ofPlace tokens place).perform (.accept kind) =
        (.truth false, ofPlace tokens place) := by
      simp [perform, accept, check_ofPlace, isKind]
    refine .of_stays performed (.declines fun token isNext same => isKind ?_)
      (by simp [takes?, performed])
    rw [Option.mem_def.1 isNext, Option.map_some, same]

theorem stepsForward_next : StepsForward tokens place .next := by
  cases isNext : tokens[place]? with
  | none =>
    have performed : (ofPlace tokens place).perform .next =
        (.token none, ofPlace tokens place) := by
      simp [perform, next?_ofPlace, isNext]
    exact .of_stays performed (.ended isNext) (by simp [takes?, performed])
  | some token =>
    have performed : (ofPlace tokens place).perform .next =
        (.token (some token), ofPlace tokens (place + 1)) := by
      simp [perform, next?_ofPlace, isNext]
    exact .of_takes isNext performed (.next isNext) (by simp [takes?, performed])

theorem stepsForward_consume (within : place ≤ tokens.length) (kind : Token.Kind) :
    StepsForward tokens place (.consume kind) := by
  have reports := reports_ofPlace within kind.describe
  have expected := (ofPlace tokens place).expected_unexpected kind.describe
  by_cases isKind : tokens[place]?.map Token.kind = some kind
  · obtain ⟨token, isNext, rfl⟩ := Option.map_eq_some_iff.1 isKind
    have performed : (ofPlace tokens place).perform (.consume token.kind) =
        (.taken (.ok token), ofPlace tokens (place + 1)) := by
      simp [perform, consume, replied, next?_ofPlace, isNext]
    exact .of_takes isNext performed (.consumes isNext) (by simp [takes?, performed])
  · have other : ∀ token ∈ tokens[place]?, token.kind ≠ kind := fun token isNext same =>
      isKind (by rw [Option.mem_def.1 isNext, Option.map_some, same])
    have performed : (ofPlace tokens place).perform (.consume kind) =
        (.taken (.error ((ofPlace tokens place).unexpected kind.describe)),
          ofPlace tokens place) := by
      cases isNext : tokens[place]? with
      | none => simp [perform, consume, replied, next?_ofPlace, isNext]
      | some token => simp [perform, consume, replied, next?_ofPlace, isNext, other token isNext]
    exact .of_stays performed (.refuses other reports expected) (by simp [takes?, performed])

theorem stepsForward_consumeAny (within : place ≤ tokens.length) (kinds : List Token.Kind) :
    StepsForward tokens place (.consumeAny kinds) := by
  have reports := reports_ofPlace within (Token.Kind.describeAny kinds)
  have expected := (ofPlace tokens place).expected_unexpected (Token.Kind.describeAny kinds)
  by_cases isOne : ∃ token, tokens[place]? = some token ∧ token.kind ∈ kinds
  · obtain ⟨token, isNext, isOne⟩ := isOne
    have performed : (ofPlace tokens place).perform (.consumeAny kinds) =
        (.taken (.ok token), ofPlace tokens (place + 1)) := by
      simp [perform, consumeAny, replied, next?_ofPlace, isNext, isOne]
    exact .of_takes isNext performed (.consumesAny isNext isOne) (by simp [takes?, performed])
  · have others : ∀ token ∈ tokens[place]?, token.kind ∉ kinds :=
      fun token isNext isKind => isOne ⟨token, isNext, isKind⟩
    have performed : (ofPlace tokens place).perform (.consumeAny kinds) =
        (.taken (.error ((ofPlace tokens place).unexpected (Token.Kind.describeAny kinds))),
          ofPlace tokens place) := by
      cases isNext : tokens[place]? with
      | none => simp [perform, consumeAny, replied, next?_ofPlace, isNext]
      | some token =>
        simp [perform, consumeAny, replied, next?_ofPlace, isNext, others token isNext]
    exact .of_stays performed (.refusesAny others reports expected) (by simp [takes?, performed])

/-- Every request is answered in this way. -/
theorem stepsForward (within : place ≤ tokens.length) (request : StreamRequest) :
    StepsForward tokens place request := by
  cases request with
  | atEnd => exact .of_stays (by rw [perform, atEnd_ofPlace within]) .atEnd rfl
  | previous => exact .of_stays (by rw [perform, previous?_ofPlace]) .previous rfl
  | peek => exact .of_stays (by rw [perform, peek?_ofPlace]) .peek rfl
  | peekKind => exact .of_stays (by rw [perform, peekKind?_ofPlace]) .peekKind rfl
  | check kind => exact .of_stays (by rw [perform, check_ofPlace]) (.check kind) rfl
  | accept kind => exact stepsForward_accept kind
  | next => exact stepsForward_next
  | consume kind => exact stepsForward_consume within kind
  | consumeAny kinds => exact stepsForward_consumeAny within kinds
  | unexpected expected =>
    have law := StreamLaw.unexpected (reports_ofPlace within expected)
    rw [expected_unexpected] at law
    exact .of_stays rfl law rfl

/-- Requests move a stream over the tokens that they take. -/
theorem run_ofPlace (within : place ≤ tokens.length) (requests : List StreamRequest) :
    ∃ later, later ≤ tokens.length ∧
      ((ofPlace tokens place).run requests).2 = ofPlace tokens later ∧
      tokens.take place ++ (ofPlace tokens place).takesAll requests = tokens.take later ∧
      StreamTrace tokens place requests ((ofPlace tokens place).run requests).1 later := by
  induction requests generalizing place with
  | nil => exact ⟨place, within, rfl, List.append_nil _, .done place⟩
  | cons request requests ih =>
    rw [run, takesAll]
    cases stepsForward within request with
    | stays same law none =>
      obtain ⟨later, inside, isLater, taken, trace⟩ := ih within
      rw [same, none]
      exact ⟨later, inside, isLater, taken, .step law trace⟩
    | @takes token isNext moved law takes =>
      obtain ⟨further, -⟩ := List.getElem?_eq_some_iff.1 isNext
      obtain ⟨later, inside, isLater, taken, trace⟩ := ih further
      rw [moved, takes]
      refine ⟨later, inside, isLater, ?_, .step law trace⟩
      rw [← taken, List.take_add_one, isNext, List.append_assoc]

end TokenStream

/-- What is known of a stream of some tokens when it has answered requests, with the tokens that
have been taken from it. -/
structure Forward (tokens : List Token) (requests : List StreamRequest)
    (replies : List StreamReply) (taken : List Token) (stream : TokenStream) : Prop where
  within : stream.place ≤ tokens.length
  /-- The tokens that were taken are those at the front, in order and each of them once. -/
  front : taken = tokens.take stream.place
  stands : stream = .ofPlace tokens stream.place
  previous : stream.previous? = taken.getLast?
  trace : StreamTrace tokens 0 requests replies stream.place
  /-- A request that takes no token leaves the stream as it is. -/
  stays : ∀ request, stream.takes? request = none → (stream.perform request).2 = stream

/-- Whatever has been asked of a stream, it has gone forward over the tokens that were taken. -/
theorem TokenStream.run_forward (tokens : List Token) (requests : List StreamRequest) :
    Forward tokens requests ((ofTokens tokens).run requests).1
      ((ofTokens tokens).takesAll requests) ((ofTokens tokens).run requests).2 := by
  obtain ⟨place, within, stands, taken, trace⟩ := run_ofPlace (Nat.zero_le tokens.length) requests
  rw [← ofTokens_eq] at stands taken trace
  have isPlace := place_ofPlace within
  have isTaken : (ofTokens tokens).takesAll requests = tokens.take place := taken
  rw [stands, isTaken]
  refine ⟨by rwa [isPlace], by rw [isPlace], by rw [isPlace], previous?_ofPlace, by rwa [isPlace],
    fun request none => ?_⟩
  cases stepsForward within request with
  | stays same law _ => exact same
  | takes isNext moved law takes =>
    rw [none] at takes
    cases takes

end Jack

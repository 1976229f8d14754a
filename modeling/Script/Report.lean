import Script.Grammar.Statement
import Script.Machine
import Script.Token.Scan

/-!
What is said of a program that cannot be read or that stops early.
-/

namespace Script

structure Report where
  label : String
  message : String
  pos : Option Pos
  deriving DecidableEq, Repr

namespace Report

def text (r : Report) : String :=
  match r.pos with
  | some p => s!"{r.label} at line {p.line}, column {p.column}: {r.message}"
  | none => s!"{r.label}: {r.message}"

end Report

def Fault.report (f : Fault) (pos : Option Pos) : Report :=
  ⟨s!"RuntimeError({f.kind.name})", f.message, pos⟩

def LexError.report (e : LexError) : Report := ⟨"LexError", e.cause.message, e.pos⟩

def ParseError.report (e : ParseError) : Report := ⟨"ParseError", e.message, e.found.pos⟩

def ParseFailure.report : ParseFailure → Report
  | .noEnd => ⟨"Incomplete", "token stream must end with an EOF token", none⟩
  | .wrong e => e.report

def Stop.report : Stop → Report
  | .fault cause pos => cause.report pos
  | .cancelled turns pos =>
    ⟨"Cancelled", s!"execution cancelled after {turns} loop iterations", pos⟩
  | .domain => ⟨"DomainError", Refusal.domainMessage, none⟩
  | .unfinished => ⟨"Unfinished", "a loop has used up its turns", none⟩

inductive Problem
  | lex (error : LexError)
  | parse (failure : ParseFailure)
  | stop (cause : Stop)

def Problem.report : Problem → Report
  | .lex e => e.report
  | .parse e => e.report
  | .stop cause => cause.report

end Script

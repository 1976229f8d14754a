import Script.Proofs.Grammar.Derivation

/-!
How expressions and simple statements begin. No expression begins with a token that another form of
statement begins with, so a statement's form shows in its first token.
-/

namespace Script.Grammar

/-- The row has a first token, and its kind is one of `kinds`. -/
def Heads (kinds : Kind → Prop) (w : List Token) : Prop := ∃ t v, w = t :: v ∧ kinds t.kind

theorem Heads.append {kinds : Kind → Prop} {w : List Token} (heads : Heads kinds w)
    (v : List Token) : Heads kinds (w ++ v) := by
  obtain ⟨t, u, rfl, first⟩ := heads
  exact ⟨t, u ++ v, rfl, first⟩

theorem Heads.imp {kinds others : Kind → Prop} {w : List Token}
    (imp : ∀ kind, kinds kind → others kind) (heads : Heads kinds w) : Heads others w := by
  obtain ⟨t, v, rfl, first⟩ := heads
  exact ⟨t, v, rfl, imp _ first⟩

inductive BeginsOperand : Kind → Prop
  | literal {kind : Kind} {value : Literal} (denotes : Denotes kind value) : BeginsOperand kind
  | name (text : String) : BeginsOperand (.identifier text)
  | array : BeginsOperand (.punct .openBracket)
  | group : BeginsOperand (.punct .openParen)

inductive Begins : Kind → Prop
  | operand {kind : Kind} (begins : BeginsOperand kind) : Begins kind
  | unary {kind : Kind} {op : UnaryOp} (leads : Leads kind op) : Begins kind

theorem Primary.begins {w : List Token} {e : Expr} (derived : Primary w e) :
    Heads BeginsOperand w := by
  cases derived with
  | literal denotes => exact ⟨_, _, rfl, .literal denotes⟩
  | name identifier => exact ⟨_, _, rfl, identifier ▸ .name _⟩
  | array opens => exact ⟨_, _, rfl, opens ▸ .array⟩
  | group opens => exact ⟨_, _, rfl, opens ▸ .group⟩

theorem Postfixed.begins : ∀ {w : List Token} {e : Expr}, Postfixed w e → Heads BeginsOperand w
  | _, _, .primary whole => whole.begins
  | _, _, .member before _ _ => before.begins.append _
  | _, _, .index before _ _ _ => (before.begins.append _).append _
  | _, _, .call before _ _ => before.begins.append _

theorem Chained.begins : ∀ {level : Nat} {w : List Token} {e : Expr},
    Chained level w e → Heads Begins w
  | _, _, _, .postfixed whole => whole.begins.imp fun _ => .operand
  | _, _, _, .unary leads _ => ⟨_, _, rfl, .unary leads⟩
  | _, _, _, .tighter whole => whole.begins
  | _, _, _, .connective before _ _ _ => before.begins.append _

theorem Simple.ne_nil {enclosing : Enclosing} {w : List Token} {s : Stmt}
    (derived : Simple enclosing w s) : w ≠ [] := by
  cases derived <;> simp

end Script.Grammar

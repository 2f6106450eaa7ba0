import LandUse.Equation.Library
import LandUse.Proofs.Grammar.Following

namespace LandUse

/-! ### Levels -/

inductive Expr.Within : Nat → Nat → Expr → Expr → Prop
  | refl (e) : Within 0 0 e e
  | param {loops calls x e span name isVariable subs bracket index} :
      Subscript.index bracket index (some e) ∈ subs → Within loops calls x e →
      Within loops calls x (.param span name isVariable subs)
  | negate {loops calls x e span opSpan} : Within loops calls x e → Within loops calls x (.negate span opSpan e)
  | left {loops calls x e e' span op opSpan} : Within loops calls x e →
      Within loops calls x (.binary span op opSpan e e')
  | right {loops calls x e e' span op opSpan} : Within loops calls x e' →
      Within loops calls x (.binary span op opSpan e e')
  | group {loops calls x e span} : Within loops calls x e → Within loops calls x (.group span e)
  | call {loops calls x e span fn level body seps args} : e ∈ args → Within loops calls x e →
      Within loops (calls + 1) x (.call span fn level body seps args)
  | loop {loops calls x e span keyword dim dimSpan level body} : Within loops calls x e →
      Within (loops + 1) calls x (.loop span keyword dim dimSpan level body e)

def Expr.Levels (loops calls : Nat) : Expr → Prop
  | .loop _ _ _ _ level _ _ => level = loops
  | .call _ _ level _ _ _ => level = calls
  | _ => True

namespace Grammar

open LandUse.Parser

lemma eq_of_keptExpr {e e' : Expr} (h : keptExpr e = some e') : e = e' := by
  cases e with
  | number => cases h
  | _ => exact Option.some.inj h

mutual

theorem Phrase.levels (d : Depth) : (p : Phrase) → ∀ {loops calls : Nat} {x : Expr}, x.Within loops calls (p.expr d) →
    x.Levels (d.loops + loops) (d.calls + calls)
  | .number .., _, _, _, .refl _ | .equation _, _, _, _, .refl _ => trivial
  | .group _ body _, _, _, _, h => by
    cases h with
    | refl => trivial
    | group h => exact body.levels d h
  | .loop _ _ _ _ _ _ body _, _, _, _, h => by
    cases h with
    | refl => rfl
    | loop h =>
      have hbody := body.levels _ h
      rwa [Nat.add_assoc, Nat.add_comm 1] at hbody
  | .call _ _ _ args _, _, _, _, h => by
    cases h with
    | refl => rfl
    | call harg h =>
      have harg := args.levels _ harg h
      rwa [Nat.add_assoc, Nat.add_comm 1] at harg
  | .decision _ subs, _, _, _, h | .parameter _ subs, _, _, _, h => by
    cases h with
    | refl => trivial
    | param hsub h => exact subs.levels d hsub h
  | .minus _ arg, _, _, _, h => by
    cases h with
    | refl => trivial
    | negate h => exact arg.levels d h
  | .plus _ arg, _, _, _, h => arg.levels d h
  | .binary lhs _ _ rhs, _, _, _, h => by
    cases h with
    | refl => trivial
    | left h => exact lhs.levels d h
    | right h => exact rhs.levels d h

theorem Arguments.levels (d : Depth) : (args : Arguments) → ∀ {e x : Expr} {loops calls : Nat}, e ∈ args.exprs d →
    x.Within loops calls e → x.Levels (d.loops + loops) (d.calls + calls)
  | .last arg, _, _, _, _, he, h => arg.levels d (List.mem_singleton.1 he ▸ h)
  | .more arg _ rest, _, _, _, _, he, h => by
    rcases List.mem_cons.1 he with rfl | he
    · exact arg.levels d h
    · exact rest.levels d he h

theorem Brackets.levels (d : Depth) : (subs : Brackets) → ∀ {bracket index} {e x : Expr} {loops calls : Nat},
    Subscript.index bracket index (some e) ∈ subs.subscripts d → x.Within loops calls e →
    x.Levels (d.loops + loops) (d.calls + calls)
  | .done, _, _, _, _, _, _, he, _ => by cases he
  | .dim _ _ _ rest, _, _, _, _, _, _, he, h | .option _ _ _ _ rest, _, _, _, _, _, _, he, h => by
    rcases List.mem_cons.1 he with heq | he
    · cases heq
    · exact rest.levels d he h
  | .constant _ value _ _ rest, _, _, _, _, _, _, he, h => by
    rcases List.mem_cons.1 he with heq | he
    · have hvalue := eq_of_keptExpr (Subscript.index.inj heq).2.2.symm
      exact value.levels d (hvalue ▸ h)
    · exact rest.levels d he h

end

end Grammar

/-! ### Positions -/

namespace Token

lemma le_of_scanFrom_error {fuel : Nat} {e : ScanError} {at' : Nat} : ∀ {pos : Nat} {bs : Text.Bytes},
    scanFrom fuel pos bs = .error (at', e) → at' ≤ pos + bs.length := by
  induction fuel with
  | zero =>
    intro pos bs h
    cases h
  | succ fuel ih =>
    intro pos bs h
    cases bs with
    | nil => cases h
    | cons b r =>
      rw [scanFrom] at h
      cases hstep : step b r with
      | error e =>
        rw [hstep] at h
        cases h
        exact Nat.le_add_right _ _
      | blanks n =>
        obtain ⟨blanks, rest, heq, -, -, rfl⟩ := blanks_of_step hstep
        rw [hstep] at h
        simp only [heq, List.drop_left] at h
        have hle := ih h
        rw [heq, List.length_append]
        omega
      | token k n =>
        obtain ⟨lex, rest, heq, -, rfl⟩ := spells_of_step hstep
        rw [hstep] at h
        simp only [heq, List.drop_left] at h
        cases hrest : scanFrom fuel (pos + lex.length) rest with
        | ok us =>
          rw [hrest] at h
          cases h
        | error x =>
          rw [hrest] at h
          cases h
          have hle := ih hrest
          rw [heq, List.length_append]
          omega

lemma le_of_scan_error {src : Text.Bytes} {pos : Nat} {e : ScanError} (h : scan src = .error (pos, e)) :
    pos ≤ src.length := by
  have hle := le_of_scanFrom_error h
  rwa [Nat.zero_add] at hle

end Token

namespace Cursor

open LandUse.Parser

variable {c : Context} {ts : List Token}

lemma end_follows {us : List Token} {s : State} {e : Expr} (h : At c ts [] us s) :
    Follows c ts [] 1
      ((do
        let t ← peek c ts
        match t.kind with
        | .eof => return e
        | _ => refuse t.pos (.unexpected t) : Reader Expr) s)
      (if us.isEmpty then .ok (e, []) else c.unexpected us) := by
  rw [h.peek_bind]
  cases us with
  | nil => exact .ok h Nat.one_pos
  | cons t us =>
    obtain ⟨kind, lexeme, pos⟩ := t
    cases kind with
    | eof => exact absurd rfl h.ne_eof
    | _ => exact h.refuse_peek

lemma equation_follows (hlaid : Token.Laid c.src ts) (hne : ts ≠ []) :
    Follows c ts [] 1 (equation c ts start) ((Parser.equation c ts).map (·, [])) := by
  have hstart : At c ts [] ts start := ⟨Nat.zero_le _, rfl, rfl, hlaid⟩
  have hequation : (Parser.equation c ts).map (·, ([] : List Token)) = (do
      let x ← Parser.expression c (fuelFor ts) (depth []) 0 ts
      if x.2.isEmpty then .ok (x.1, []) else c.unexpected x.2) := by
    change (Parser.expression c (fuelFor ts) (depth []) 0 ts >>= fun x =>
      if x.2.isEmpty then pure x.1 else c.unexpected x.2 : Except ParseError Expr).map (·, []) = _
    cases Parser.expression c (fuelFor ts) (depth []) 0 ts with
    | error e => rfl
    | ok x =>
      obtain ⟨e, rest⟩ := x
      cases rest <;> rfl
  have hfuel : 6 * ts.length + 3 ≤ fuelFor ts := by
    unfold fuelFor
    omega
  rw [hequation, equation, hstart.peek_bind]
  cases ts with
  | nil => exact absurd rfl hne
  | cons t us =>
    obtain ⟨kind, lexeme, pos⟩ := t
    cases kind with
    | eof => exact absurd rfl hstart.ne_eof
    | _ => exact ((followsAt c _ _).expression hstart hfuel).bind fun e s rest _ hat _ => end_follows hat

end Cursor

/-- The parser accepts or refuses at a position of the source, and the machine comes to the same end. -/
theorem parse_located (symbols : Symbols) (self : String) (src : Text.Bytes) :
    ∃ s : Cursor.State, (∀ ts, Token.scan src = .ok ts → s.pos ≤ ts.length) ∧
    match parseBytes symbols self src with
    | .ok e => Cursor.parse ⟨symbols, self, src⟩ = .ok e s ∧ s.scopes = [] ∧
        ∀ loops calls x, Expr.Within loops calls x e → x.Levels loops calls
    | .error e => Cursor.parse ⟨symbols, self, src⟩ = .error (.refused e) s ∧
        0 ≤ e.offset ∧ e.offset ≤ src.length ∧
        (e.failure self).kind = .parse ∧ (e.failure self).equation = self ∧ (e.failure self).offset = e.offset := by
  cases hscan : Token.scan src with
  | error x =>
    obtain ⟨pos, e⟩ := x
    have hparse : parseBytes symbols self src = .error ⟨pos, .scan e⟩ := by
      rw [parseBytes, hscan]
    rw [hparse, Cursor.parse, hscan]
    have hle := Token.le_of_scan_error hscan
    exact ⟨Cursor.start, nofun, rfl, Int.natCast_nonneg _, Int.ofNat_le.2 hle, rfl, rfl, rfl⟩
  | ok ts =>
    obtain ⟨hlaid, -⟩ := (Token.cuts_of_scan hscan).laid [] rfl rfl
    have hmachine : Cursor.parse ⟨symbols, self, src⟩ = Cursor.equation ⟨symbols, self, src⟩ ts Cursor.start := by
      rw [Cursor.parse, hscan]
    rw [hmachine]
    cases ts with
    | nil =>
      have hparse : parseBytes symbols self src = .error ⟨0, .empty⟩ := by
        rw [parseBytes, hscan]
      rw [hparse]
      exact ⟨Cursor.start, fun _ _ => Nat.zero_le _, rfl, le_rfl, Int.natCast_nonneg _, rfl, rfl, rfl⟩
    | cons t us =>
      have hparse : parseBytes symbols self src = Parser.equation ⟨symbols, self, src⟩ (t :: us) := by
        rw [parseBytes, hscan]
      have hfollows := Cursor.equation_follows (c := ⟨symbols, self, src⟩) hlaid (List.cons_ne_nil t us)
      rw [← hparse] at hfollows
      cases hresult : parseBytes symbols self src with
      | ok e =>
        rw [hresult] at hfollows
        obtain ⟨s, hs, hat⟩ := hfollows.of_ok
        obtain ⟨ts, p, -, -, rfl⟩ := Grammar.derivation_of_parseBytes hresult
        refine ⟨s, fun ts hts => ?_, hs, hat.scopes, fun loops calls x hx => ?_⟩
        · cases hts
          exact hat.le
        · have hlevels := p.levels ⟨0, 0⟩ hx
          rwa [Nat.zero_add, Nat.zero_add] at hlevels
      | error e =>
        rw [hresult] at hfollows
        obtain ⟨s, hs, hle, hlocated⟩ := hfollows.of_error
        refine ⟨s, fun ts hts => ?_, hs, hlocated.1, hlocated.2, rfl, rfl, rfl⟩
        cases hts
        exact hle

end LandUse

import LandUse.Equation.Reversal
import LandUse.Proofs.Grammar.Printing

namespace LandUse

open Text Alphabet

lemma length_slice (src : Bytes) (i j : Nat) : (slice src i j).length = min (j - i) (src.length - i) := by
  simp [slice]

lemma getElem?_slice {src : Bytes} {i j k : Nat} (h : i + k < j) : (slice src i j)[k]? = src[i + k]? := by
  rw [slice, List.getElem?_take_of_lt (by omega), List.getElem?_drop]

lemma slice_append {i j k : Nat} (src : Bytes) (hij : i ≤ j) (hjk : j ≤ k) :
    slice src i j ++ slice src j k = slice src i k := by
  have hdrop : src.drop j = (src.drop i).drop (j - i) := by rw [List.drop_drop]; congr 1; omega
  have hk : k - i = (j - i) + (k - j) := by omega
  rw [slice, slice, slice, hdrop, hk, List.take_add]

def solid (bs : Bytes) : Bytes := bs.filter fun b => !isBlankByte b

def Blanks (src : Bytes) (i j : Nat) : Prop := ∀ k, i ≤ k → k < j → ∃ b, src[k]? = some b ∧ isBlankByte b = true

lemma Blanks.mem_slice {src : Bytes} {i j : Nat} (h : Blanks src i j) : ∀ b ∈ slice src i j, isBlankByte b = true := by
  intro b hb
  obtain ⟨k, hk, rfl⟩ := List.mem_iff_getElem.1 hb
  have hlt : i + k < j := by
    rw [length_slice] at hk
    omega
  obtain ⟨b, hb, hblank⟩ := h (i + k) (by omega) hlt
  rw [← getElem?_slice hlt, List.getElem?_eq_getElem hk] at hb
  rwa [Option.some.inj hb]

lemma Blanks.le_length {src : Bytes} {i j : Nat} (h : Blanks src i j) (hij : i < j) : j ≤ src.length := by
  obtain ⟨b, hb, -⟩ := h (j - 1) (by omega) (by omega)
  have := (List.getElem?_eq_some_iff.1 hb).1
  omega

namespace Token

def past (t : Token) : Nat := t.pos + t.lexeme.length

def Stands (src : Bytes) (t : Token) : Prop :=
  ∃ lex, Spells t.kind lex ∧ t.lexeme = ascii lex ∧ slice src t.pos t.past = lex

structure Precedes (src : Bytes) (t u : Token) : Prop where
  le : t.past ≤ u.pos
  blanks : Blanks src t.past u.pos

structure Laid (src : Bytes) (ts : List Token) : Prop where
  stands : ∀ t ∈ ts, t.Stands src
  chain : ts.IsChain (Precedes src)

inductive Spread : Bytes → List Token → Prop
  | done : Spread [] []
  | blank {b r ts} : isBlankByte b = true → Spread r ts → Spread (b :: r) ts
  | token {k lex r ts} : Spells k lex → Spread r ts → Spread (lex ++ r) (⟨k, ascii lex, 0⟩ :: ts)

lemma Spread.append {bs bs' : Bytes} {ts ts' : List Token} (h : Spread bs ts) (h' : Spread bs' ts') :
    Spread (bs ++ bs') (ts ++ ts') := by
  induction h with
  | done => exact h'
  | blank hb _ ih => exact .blank hb ih
  | token hlex _ ih =>
    rw [List.append_assoc]
    exact .token hlex ih

lemma spread_blanks : {bs : Bytes} → (∀ b ∈ bs, isBlankByte b = true) → Spread bs []
  | [], _ => .done
  | _ :: _, h => .blank (h _ List.mem_cons_self) (spread_blanks fun b hb => h b (List.mem_cons_of_mem _ hb))

lemma spread_byte {k : TokenKind} {b : UInt8} {bs : Bytes} {ts : List Token} (hb : bracket? b = some k)
    (h : Spread bs ts) :
    Spread (b :: bs) (⟨k, ascii [b], 0⟩ :: ts) := Spread.token (.bracket hb) h

variable {src : Bytes} {t u : Token}

lemma Stands.spread (h : t.Stands src) : Spread (slice src t.pos t.past) [t.unplaced] := by
  obtain ⟨lex, hlex, hlexeme, hslice⟩ := h
  have := Spread.token hlex .done
  rw [List.append_nil, ← hlexeme] at this
  rw [hslice]
  exact this

lemma Stands.lt_past (h : t.Stands src) : t.pos < t.past := by
  obtain ⟨lex, hlex, hlexeme, -⟩ := h
  have := List.length_pos_iff.2 hlex.ne_nil
  rw [past, hlexeme, length_ascii]
  omega

lemma Stands.past_le (h : t.Stands src) : t.past ≤ src.length := by
  have hlt := h.lt_past
  obtain ⟨lex, hlex, hlexeme, hslice⟩ := h
  have := congrArg List.length hslice
  rw [length_slice, past, hlexeme, length_ascii] at this
  rw [past, hlexeme, length_ascii] at hlt ⊢
  omega

lemma Stands.exists_byte (h : t.Stands src) {k : Nat} (hk : t.pos ≤ k) (hk' : k < t.past) :
    ∃ lex b, Spells t.kind lex ∧ b ∈ lex ∧ src[k]? = some b := by
  obtain ⟨lex, hlex, hlexeme, hslice⟩ := h
  have hlt : k - t.pos < lex.length := by
    rw [past, hlexeme, length_ascii] at hk'
    omega
  refine ⟨lex, lex[k - t.pos], hlex, List.getElem_mem hlt, ?_⟩
  rw [← List.getElem?_eq_getElem hlt, ← hslice, getElem?_slice (by omega)]
  congr 1
  omega

lemma Stands.not_blank (h : t.Stands src) {k : Nat} (hk : t.pos ≤ k) (hk' : k < t.past) :
    ∃ b, src[k]? = some b ∧ isBlankByte b = false := by
  obtain ⟨lex, b, hlex, hb, hsrc⟩ := h.exists_byte hk hk'
  exact ⟨b, hsrc, (isGraphicByte_iff.1 (hlex.graphic b hb)).1⟩

lemma mem_symbol_iff (op : Operator) : 94 ∈ bytes op.symbol ↔ op = .pow := by
  have hmem : (bytes op.symbol).contains 94 = decide (op = .pow) := by cases op <;> rfl
  rw [← List.contains_iff_mem, hmem, decide_eq_true_eq]

lemma Stands.caret (h : t.Stands src) {k : Nat} (hk : t.pos ≤ k) (hk' : k < t.past) :
    src[k]? = some 94 ↔ t.kind = .operator .pow := by
  obtain ⟨lex, b, hlex, hb, hsrc⟩ := h.exists_byte hk hk'
  rw [hsrc, Option.some.injEq]
  rcases hlex.byte_cases with ⟨op, hop, rfl⟩ | ⟨hne, hplain⟩
  · rw [hop, TokenKind.operator.injEq]
    constructor
    · rintro rfl
      exact (mem_symbol_iff op).1 hb
    · rintro rfl
      have hbytes : bytes Operator.pow.symbol = [94] := rfl
      rw [hbytes] at hb
      exact List.mem_singleton.1 hb
  · have := (plain_byte b (hplain b hb)).2
    constructor
    · rintro rfl
      cases this
    · exact fun hop => absurd hop (hne .pow)

lemma bracket_injective {b b' : UInt8} {k : TokenKind} (h : bracket? b = some k) (h' : bracket? b' = some k) :
    b = b' := by
  unfold bracket? at h
  split at h <;> cases h <;> unfold bracket? at h' <;> split at h' <;> first | rfl | cases h'

lemma Spells.eq_byte {k : TokenKind} {b : UInt8} {lex : Bytes} (hb : bracket? b = some k) (h : Spells k lex) :
    lex = [b] := by
  cases h with
  | bracket hb' => rw [bracket_injective hb' hb]
  | _ => exact absurd hb (by unfold bracket?; split <;> simp)

lemma Stands.byte (h : t.Stands src) {b : UInt8} (hb : bracket? b = some t.kind) :
    t.past = t.pos + 1 ∧ src[t.pos]? = some b := by
  have hlt := h.lt_past
  obtain ⟨lex, b', hlex, hmem, hsrc⟩ := h.exists_byte le_rfl hlt
  obtain ⟨lex', hlex', hlexeme, -⟩ := h
  obtain rfl := hlex.eq_byte hb
  obtain rfl := hlex'.eq_byte hb
  rw [List.mem_singleton.1 hmem] at hsrc
  exact ⟨by rw [past, hlexeme, length_ascii]; rfl, hsrc⟩

lemma Stands.spread_byte (h : t.Stands src) {b : UInt8} (hb : bracket? b = some t.kind) : Spread [b] [t.unplaced] := by
  have hspread := h.spread
  obtain ⟨lex, hlex, -, hslice⟩ := h
  rwa [hslice, hlex.eq_byte hb] at hspread

lemma Precedes.spread (h : Precedes src t u) : Spread (slice src t.past u.pos) [] := spread_blanks h.blanks.mem_slice

lemma Laid.spread {ts : List Token} (h : Laid src (t :: ts)) :
    ∀ u ∈ (t :: ts).getLast?, t.pos ≤ u.past ∧ Spread (slice src t.pos u.past) ((t :: ts).map unplaced) := by
  induction ts generalizing t with
  | nil =>
    rintro _ ⟨⟩
    have ht := h.stands t List.mem_cons_self
    exact ⟨ht.lt_past.le, ht.spread⟩
  | cons v ts ih =>
    intro u hu
    obtain ⟨hstands, hchain⟩ := h
    rw [List.isChain_cons_cons] at hchain
    obtain ⟨ht, hts⟩ := List.forall_mem_cons.1 hstands
    rw [List.getLast?_cons_cons] at hu
    obtain ⟨hle, hspread⟩ := ih ⟨hts, hchain.2⟩ u hu
    have hlt := ht.lt_past
    have hle' := hchain.1.le
    refine ⟨by omega, ?_⟩
    rw [← slice_append src (j := v.pos) (by omega) hle, ← slice_append src (j := t.past) (by omega) hle']
    exact (ht.spread.append hchain.1.spread).append hspread

lemma slice_length_append (front lex r : Bytes) :
    slice (front ++ (lex ++ r)) front.length (front.length + lex.length) = lex := by
  rw [slice, List.drop_left, Nat.add_sub_cancel_left, List.take_left]

lemma blanks_cons {i j : Nat} {b : UInt8} (hb : src[i]? = some b) (hblank : isBlankByte b = true)
    (h : Blanks src (i + 1) j) : Blanks src i j := by
  intro k hik hkj
  rcases Nat.eq_or_lt_of_le hik with rfl | hlt
  · exact ⟨b, hb, hblank⟩
  · exact h k hlt hkj

lemma Cuts.laid {pos : Nat} {bs : Bytes} {ts : List Token} (h : Cuts pos bs ts) : ∀ front : Bytes, src = front ++ bs →
    front.length = pos → Laid src ts ∧ Blanks src pos ((ts.head?.map (·.pos)).getD src.length) ∧
      Blanks src ((ts.getLast?.map past).getD pos) src.length ∧ ∀ t ∈ ts.head?, pos ≤ t.pos := by
  induction h with
  | done pos =>
    rintro front rfl rfl
    have hnone : Blanks (front ++ []) front.length (front ++ []).length := by
      rw [List.append_nil]
      exact fun k hk hk' => absurd hk (by omega)
    exact ⟨⟨List.forall_mem_nil _, .nil⟩, hnone, hnone, by simp⟩
  | @blank pos b r ts hb _ ih =>
    rintro front rfl rfl
    obtain ⟨hlaid, hfirst, hlast, hle⟩ := ih (front ++ [b]) (by simp) (by simp)
    have hbyte : (front ++ b :: r)[front.length]? = some b := by simp
    refine ⟨hlaid, blanks_cons hbyte hb hfirst, ?_, fun t ht => Nat.le_of_succ_le (hle t ht)⟩
    cases ts with
    | nil => exact blanks_cons hbyte hb hlast
    | cons t ts =>
      rw [List.getLast?_cons] at hlast ⊢
      exact hlast
  | @token pos k lex r ts hlex _ ih =>
    rintro front rfl rfl
    obtain ⟨hlaid, hfirst, hlast, hle⟩ := ih (front ++ lex) (by simp) (by simp)
    have hpast : past ⟨k, ascii lex, front.length⟩ = front.length + lex.length := by rw [past, length_ascii]
    have hstands : Stands (front ++ (lex ++ r)) ⟨k, ascii lex, front.length⟩ := by
      refine ⟨lex, hlex, rfl, ?_⟩
      rw [hpast, slice_length_append]
    refine ⟨⟨List.forall_mem_cons.2 ⟨hstands, hlaid.stands⟩, ?_⟩, fun k hk hk' => ?_, ?_, by rintro t ⟨⟩; rfl⟩
    · cases ts with
      | nil => exact .singleton _
      | cons u ts =>
        refine .cons_cons ⟨?_, ?_⟩ hlaid.chain
        · rw [hpast]
          exact hle u rfl
        · rw [hpast]
          exact hfirst
    · exact absurd hk (Nat.not_le.2 hk')
    · rw [List.getLast?_cons]
      cases ts with
      | nil =>
        rw [← hpast] at hlast
        exact hlast
      | cons u ts =>
        rw [List.getLast?_cons] at hlast ⊢
        exact hlast

/-! ### Tokens that do not run together -/

def joins : TokenKind → TokenKind → Bool
  | .ident, .ident | .ident, .number _ | .number _, .ident | .number _, .number _ => true
  | .operator _, .operator op => op = .eq || op = .same
  | _, _ => false

def Apart (ts : List Token) : Prop := ts.IsChain fun t u => joins t.kind u.kind = false

lemma not_numeral : ∀ b : UInt8, (isBlankByte b || isOperatorByte b || (bracket? b).isSome) = true →
    isNumeralByte b = false := by decide +kernel

lemma not_word {b : UInt8} (h : isNumeralByte b = false) : isWordByte b = false := (Bool.or_eq_false_iff.1 h).1

lemma prolongs_blank (k : TokenKind) {b : UInt8} (hb : isBlankByte b = true) : prolongs k b = false := by
  have hnumeral := not_numeral b (by simp [hb])
  cases k with
  | ident => exact not_word hnumeral
  | number => exact hnumeral
  | operator => exact blank_byte hb
  | _ => rfl

lemma symbol_head (op : Operator) : ∀ b ∈ (bytes op.symbol).head?, (b == 61) = (op = .eq || op = .same : Bool) := by
  have hhead : (bytes op.symbol).head?.all fun b => (b == 61) == (op = .eq || op = .same : Bool) := by cases op <;> rfl
  intro b hb
  rw [hb] at hhead
  exact beq_iff_eq.1 hhead

lemma not_prolongs {k k' : TokenKind} {b : UInt8} {r : Bytes} (h : Spells k' (b :: r)) (hk : joins k k' = false) :
    prolongs k b = false := by
  generalize hw : b :: r = w at h
  cases h with
  | name hb =>
    obtain ⟨rfl, -⟩ := List.cons.inj hw
    cases k with
    | ident | number => cases hk
    | operator => exact (letter_byte hb).2.1
    | _ => rfl
  | numeral hn =>
    subst hw
    cases k with
    | ident | number => cases hk
    | operator => exact (numeral_byte hn.head).2.2.1
    | _ => rfl
  | operator op =>
    have hb := isOperatorByte_symbol op b (hw ▸ List.mem_cons_self)
    have hnumeral := not_numeral b (by simp [hb])
    cases k with
    | ident => exact not_word hnumeral
    | number => exact hnumeral
    | operator =>
      rw [prolongs, symbol_head op b (hw ▸ rfl)]
      exact hk
    | _ => rfl
  | bracket hb =>
    obtain ⟨rfl, -⟩ := List.cons.inj hw
    have hsome : (bracket? b).isSome = true := by rw [hb]; rfl
    have hnumeral := not_numeral b (by simp [hsome])
    cases k with
    | ident => exact not_word hnumeral
    | number => exact hnumeral
    | operator => exact (bracket_byte hsome).2.1
    | _ => rfl

lemma Spread.past {k : TokenKind} {bs : Bytes} {ts : List Token} (h : Spread bs ts)
    (hts : ∀ t ∈ ts.head?, joins k t.kind = false) : Past (prolongs k) bs := by
  cases h with
  | done => exact .nil _
  | blank hb => exact past_cons.2 (prolongs_blank k hb)
  | token hlex =>
    obtain ⟨b, r, rfl⟩ := List.exists_cons_of_ne_nil hlex.ne_nil
    exact past_cons.2 (not_prolongs hlex (hts _ rfl))

lemma Spread.lexes {bs : Bytes} {ts : List Token} (h : Spread bs ts) (hts : Apart ts) : Lexes bs ts := by
  induction h with
  | done => exact .done
  | blank hb _ ih => exact .blank hb (ih hts)
  | token hlex hr ih =>
    obtain ⟨hhead, htail⟩ := List.isChain_cons.1 hts
    exact .token hlex (hr.past hhead) (ih htail)

lemma Spread.text {bs : Bytes} {ts : List Token} (h : Spread bs ts) :
    ascii (solid bs) = String.join (ts.map (·.lexeme)) := by
  induction h with
  | done => rfl
  | blank hb _ ih => rw [solid, List.filter_cons_of_neg (by simp [hb]), ← solid, ih]
  | token hlex _ ih =>
    rw [List.map_cons, String.join_cons, ← ih, solid, List.filter_append, List.filter_eq_self.2 fun b hb => by
      rw [(isGraphicByte_iff.1 (hlex.graphic b hb)).1]; rfl]
    simp [ascii, solid]

lemma Cuts.spread {pos : Nat} {bs : Bytes} {ts : List Token} (h : Cuts pos bs ts) : Spread bs (ts.map unplaced) := by
  induction h with
  | done => exact .done
  | blank hb _ ih => exact .blank hb ih
  | token hlex _ ih => exact .token hlex ih

end Token

end LandUse

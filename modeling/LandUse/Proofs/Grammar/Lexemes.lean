import LandUse.Equation.Token
import LandUse.Proofs.Outcome
import Mathlib.Data.FinEnum
import Mathlib.Data.List.TakeWhile
import Mathlib.Tactic.Common

namespace LandUse.Token

open Text Alphabet Outcome

lemma char_toNat_ofNat (b : UInt8) : (Char.ofNat b.toNat).toNat = b.toNat := by
  have hb : b.toNat < 256 := b.toNat_lt
  have hv : b.toNat.isValidChar := Or.inl (by omega)
  rw [Char.ofNat, dif_pos hv]
  exact UInt32.toNat_ofNatLT

lemma ascii_injective : Function.Injective ascii := by
  intro bs cs h
  have hl : bs.map (fun b => Char.ofNat b.toNat) = cs.map fun b => Char.ofNat b.toNat := String.ofList_injective h
  refine List.map_injective_iff.2 ?_ hl
  intro a b hab
  have := congrArg Char.toNat hab
  rw [char_toNat_ofNat, char_toNat_ofNat] at this
  exact UInt8.toNat_inj.1 this

@[simp] lemma length_ascii (bs : Bytes) : (ascii bs).length = bs.length := by
  simp [ascii]

@[simp] lemma bytes_append (s t : String) : bytes (s ++ t) = bytes s ++ bytes t := by
  simp [bytes]

lemma encode_ofNat : ∀ n < 128, String.utf8EncodeChar (Char.ofNat n) = [UInt8.ofNat n] := by
  decide +kernel

lemma bytes_ascii {bs : Bytes} (h : ∀ b ∈ bs, b.toNat < 128) : bytes (ascii bs) = bs := by
  induction bs with
  | nil => rfl
  | cons b r ih =>
    have hb : String.utf8EncodeChar (Char.ofNat b.toNat) = [b] := by
      rw [encode_ofNat _ (h b List.mem_cons_self), UInt8.ofNat_toNat]
    have hr := ih fun c hc => h c (List.mem_cons_of_mem _ hc)
    simp only [bytes, ascii, String.toList_ofList, List.map_cons, List.flatMap_cons, hb] at hr ⊢
    rw [hr]
    rfl

lemma byte_classes : ∀ b : UInt8,
    (isBlankByte b = true → (b == 61) = false) ∧
    (isLetterByte b = true → isBlankByte b = false ∧ (b == 61) = false ∧ b.toNat < 128) ∧
    ((isDigitByte b || b == 46) = true → (isBlankByte b = false ∧ isLetterByte b = false ∧ isOperatorByte b = false ∧
      (bracket? b).isNone = true) ∧ (b == 43 || b == 45) = false ∧ (b == 61) = false ∧ b.toNat < 128) ∧
    (isOperatorByte b = true → (isBlankByte b = false ∧ isLetterByte b = false) ∧ b.toNat < 128) ∧
    ((bracket? b).isSome = true → (isBlankByte b = false ∧ isLetterByte b = false ∧ isOperatorByte b = false) ∧
      (b == 61) = false ∧ b.toNat < 128) := by
  decide +kernel

lemma blank_byte {b : UInt8} : isBlankByte b = true → (b == 61) = false := (byte_classes b).1

lemma letter_byte {b : UInt8} : isLetterByte b = true → isBlankByte b = false ∧ (b == 61) = false ∧ b.toNat < 128 :=
  (byte_classes b).2.1

lemma numeral_byte {b : UInt8} : (isDigitByte b || b == 46) = true →
    (isBlankByte b = false ∧ isLetterByte b = false ∧ isOperatorByte b = false ∧ (bracket? b).isNone = true) ∧
      (b == 43 || b == 45) = false ∧ (b == 61) = false ∧ b.toNat < 128 := (byte_classes b).2.2.1

lemma operator_byte {b : UInt8} : isOperatorByte b = true →
    (isBlankByte b = false ∧ isLetterByte b = false) ∧ b.toNat < 128 := (byte_classes b).2.2.2.1

lemma bracket_byte {b : UInt8} : (bracket? b).isSome = true →
    (isBlankByte b = false ∧ isLetterByte b = false ∧ isOperatorByte b = false) ∧ (b == 61) = false ∧ b.toNat < 128 :=
  (byte_classes b).2.2.2.2

lemma digit_byte {b : UInt8} (h : isDigitByte b = true) : (b == 43 || b == 45) = false :=
  (numeral_byte (Bool.or_eq_true_iff.2 (.inl h))).2.1

def isWordByte (b : UInt8) : Bool := isLetterByte b || isDigitByte b

def Past (p : UInt8 → Bool) (rest : Bytes) : Prop := ∀ b ∈ rest.head?, p b = false

lemma Past.nil (p : UInt8 → Bool) : Past p [] := by simp [Past]

variable {p : UInt8 → Bool} {rest : Bytes} {op : Operator} {n : Nat}

lemma past_cons {b : UInt8} {r : Bytes} : Past p (b :: r) ↔ p b = false := by simp [Past]

lemma Past.mono {q : UInt8 → Bool} (h : Past p rest) (hq : ∀ b, p b = false → q b = false) :
    Past q rest := fun b hb => hq b (h b hb)

lemma takeWhile_append_past {bs : Bytes} (h : ∀ b ∈ bs, p b = true) (hr : Past p rest) :
    (bs ++ rest).takeWhile p = bs := by
  rw [List.takeWhile_append_of_pos h]
  cases rest with
  | nil => simp
  | cons b r => simp [past_cons.1 hr]

def Digits (bs : Bytes) : Prop := ∀ b ∈ bs, isDigitByte b = true

def Fraction (bs : Bytes) : Prop := bs = [] ∨ ∃ ds, bs = 46 :: ds ∧ Digits ds

def Exponent (bs : Bytes) : Prop :=
  bs = [] ∨ ∃ e sign ds, bs = e :: (sign ++ ds) ∧ (e = 101 ∨ e = 69) ∧
    (sign = [] ∨ sign = [43] ∨ sign = [45]) ∧ Digits ds ∧ ds ≠ []

def Numeral (bs : Bytes) : Prop :=
  ∃ whole point exponent, bs = whole ++ (point ++ exponent) ∧ Digits whole ∧ Fraction point ∧ Exponent exponent ∧
    (whole ≠ [] ∨ 2 ≤ point.length)

def isNumeralByte (b : UInt8) : Bool := isWordByte b || b == 46

lemma isNumeralByte_eq_false {b : UInt8} :
    isNumeralByte b = false ↔ (isLetterByte b = false ∧ isDigitByte b = false) ∧ (b == 46) = false := by
  rw [isNumeralByte, isWordByte, Bool.or_eq_false_iff, Bool.or_eq_false_iff]

lemma Past.digit (h : Past isNumeralByte rest) : Past isDigitByte rest :=
  h.mono fun _ hb => (isNumeralByte_eq_false.1 hb).1.2

lemma Digits.takeWhile {bs : Bytes} (h : Digits bs) (hr : Past isDigitByte rest) :
    (bs ++ rest).takeWhile isDigitByte = bs := takeWhile_append_past h hr

def signLength : Bytes → Nat
  | s :: _ => if s == 43 || s == 45 then 1 else 0
  | [] => 0

lemma exponentLength_cons (b : UInt8) (r : Bytes) : exponentLength (b :: r) =
    if b == 101 || b == 69 then
      if ((r.drop (signLength r)).takeWhile isDigitByte).length == 0 then 0
      else 1 + signLength r + ((r.drop (signLength r)).takeWhile isDigitByte).length
    else 0 := by
  unfold exponentLength signLength
  rfl

lemma exponentLength_append {bs : Bytes} (h : Exponent bs) (hr : Past isNumeralByte rest) :
    exponentLength (bs ++ rest) = bs.length := by
  have hd := hr.digit
  rcases h with rfl | ⟨e, sign, ds, rfl, he, hs, hds, hne⟩
  · cases rest with
    | nil => rfl
    | cons b r =>
      have hletter := (isNumeralByte_eq_false.1 (past_cons.1 hr)).1.1
      have he : (b == 101 || b == 69) = false := by
        rw [Bool.or_eq_false_iff]
        constructor
        all_goals
          refine beq_eq_false_iff_ne.2 ?_
          rintro rfl
          cases hletter
      simp [exponentLength, he]
  · have he' : (e == 101 || e == 69) = true := by rcases he with rfl | rfl <;> rfl
    have hlen : ds.length ≠ 0 := fun h => hne (List.length_eq_zero_iff.1 h)
    rcases hs with rfl | rfl | rfl
    · obtain ⟨d, ds, rfl⟩ := List.exists_cons_of_ne_nil hne
      have hd' := digit_byte (hds d List.mem_cons_self)
      have ht := hds.takeWhile hd
      simp only [List.cons_append] at ht
      simp [exponentLength, he', hd', ht, Nat.add_comm]
    · simp [exponentLength, he', hds.takeWhile hd, hlen]
      omega
    · simp [exponentLength, he', hds.takeWhile hd, hlen]
      omega

lemma Exponent.past_digit {bs : Bytes} (h : Exponent bs) (hr : Past isNumeralByte rest) :
    Past isDigitByte (bs ++ rest) := by
  rcases h with rfl | ⟨e, sign, ds, rfl, rfl | rfl, -⟩
  · exact hr.digit
  all_goals exact past_cons.2 rfl

lemma Fraction.past_digit {bs : Bytes} (h : Fraction bs) (hr : Past isDigitByte rest) :
    Past isDigitByte (bs ++ rest) := by
  rcases h with rfl | ⟨ds, rfl, -⟩
  · exact hr
  · exact past_cons.2 rfl

def fractionLength : Bytes → Nat
  | b :: r => if b == 46 then 1 + (r.takeWhile isDigitByte).length else 0
  | [] => 0

lemma numberLength_eq (bs : Bytes) : numberLength bs =
    let whole := (bs.takeWhile isDigitByte).length
    let point := fractionLength (bs.drop whole)
    if whole == 0 && point < 2 then 0 else whole + point + exponentLength (bs.drop (whole + point)) := by
  unfold numberLength fractionLength
  rfl

lemma fractionLength_append {bs : Bytes} (h : Fraction bs) (hr : Past isDigitByte rest) (hp : Past (· == 46) rest) :
    fractionLength (bs ++ rest) = bs.length := by
  rcases h with rfl | ⟨ds, rfl, hds⟩
  · cases rest with
    | nil => rfl
    | cons b r => simpa [fractionLength] using past_cons.1 hp
  · have ht := hds.takeWhile hr
    simp [fractionLength, ht, Nat.add_comm]

lemma Exponent.past_point {bs : Bytes} (h : Exponent bs) (hr : Past isNumeralByte rest) :
    Past (· == 46) (bs ++ rest) := by
  rcases h with rfl | ⟨e, sign, ds, rfl, rfl | rfl, -⟩
  · exact hr.mono fun _ hb => (isNumeralByte_eq_false.1 hb).2
  all_goals exact past_cons.2 rfl

lemma numberLength_append {bs : Bytes} (h : Numeral bs) (hr : Past isNumeralByte rest) :
    numberLength (bs ++ rest) = bs.length := by
  obtain ⟨whole, point, exponent, rfl, hw, hp, he, hne⟩ := h
  have hwhole : (whole ++ (point ++ (exponent ++ rest))).takeWhile isDigitByte = whole :=
    hw.takeWhile (hp.past_digit (he.past_digit hr))
  have hpoint := fractionLength_append hp (he.past_digit hr) (he.past_point hr)
  have hexp := exponentLength_append he hr
  have hcond : ¬ (whole.length = 0 ∧ point.length < 2) := by
    rintro ⟨h0, h2⟩
    rcases hne with h | h
    · exact h (List.length_eq_zero_iff.1 h0)
    · omega
  have hdrop : (whole ++ (point ++ (exponent ++ rest))).drop (whole.length + point.length) = exponent ++ rest := by
    rw [← List.append_assoc, ← List.length_append, List.drop_left]
  simp only [numberLength_eq, List.append_assoc, hwhole, List.drop_left, hpoint, hdrop, hexp]
  rw [if_neg (by simpa using hcond)]
  simp only [List.length_append]
  omega

lemma digits_split (bs : Bytes) : ∃ ds r, bs = ds ++ r ∧ Digits ds ∧ bs.takeWhile isDigitByte = ds :=
  ⟨_, _, List.takeWhile_append_dropWhile.symm, fun _ => List.mem_takeWhile_imp, rfl⟩

lemma sign_split (bs : Bytes) :
    ∃ sign r, bs = sign ++ r ∧ (sign = [] ∨ sign = [43] ∨ sign = [45]) ∧ signLength bs = sign.length := by
  cases bs with
  | nil => exact ⟨[], [], rfl, .inl rfl, rfl⟩
  | cons s t =>
    by_cases hs : s = 43 ∨ s = 45
    · exact ⟨[s], t, rfl, by simpa using hs, by simp [signLength, hs]⟩
    · exact ⟨[], s :: t, rfl, .inl rfl, by simp [signLength, hs]⟩

lemma exponent_split (bs : Bytes) : ∃ e r, bs = e ++ r ∧ Exponent e ∧ exponentLength bs = e.length := by
  have hnone : exponentLength bs = 0 → ∃ e r, bs = e ++ r ∧ Exponent e ∧ exponentLength bs = e.length :=
    fun h => ⟨[], bs, rfl, .inl rfl, h⟩
  cases bs with
  | nil => exact hnone rfl
  | cons e r =>
    obtain ⟨sign, r, rfl, hs, hl⟩ := sign_split r
    obtain ⟨ds, r, rfl, hd, ht⟩ := digits_split r
    rw [exponentLength_cons, hl, List.drop_left, ht] at hnone ⊢
    split_ifs at hnone ⊢ with he hds
    · exact hnone rfl
    · refine ⟨e :: (sign ++ ds), r, by simp, .inr ⟨e, sign, ds, rfl, by simpa using he, hs, hd, ?_⟩, ?_⟩
      · simpa using hds
      · simp only [List.length_cons, List.length_append]
        omega
    · exact hnone rfl

lemma fraction_split (bs : Bytes) : ∃ p r, bs = p ++ r ∧ Fraction p ∧ fractionLength bs = p.length := by
  cases bs with
  | nil => exact ⟨[], [], rfl, .inl rfl, rfl⟩
  | cons b r =>
    by_cases hb : b = 46
    · obtain ⟨ds, r, rfl, hd, ht⟩ := digits_split r
      refine ⟨b :: ds, r, rfl, .inr ⟨ds, by rw [hb], hd⟩, ?_⟩
      simp [fractionLength, hb, ht, Nat.add_comm]
    · exact ⟨[], b :: r, rfl, .inl rfl, by simp [fractionLength, hb]⟩

lemma numeral_split {bs : Bytes} (h : numberLength bs ≠ 0) :
    ∃ lex r, bs = lex ++ r ∧ Numeral lex ∧ numberLength bs = lex.length := by
  obtain ⟨whole, r, rfl, hw, ht⟩ := digits_split bs
  obtain ⟨point, r, rfl, hp, hpl⟩ := fraction_split r
  obtain ⟨exponent, r, rfl, he, hel⟩ := exponent_split r
  have hdrop : (whole ++ (point ++ (exponent ++ r))).drop (whole.length + point.length) = exponent ++ r := by
    rw [← List.append_assoc, ← List.length_append, List.drop_left]
  simp only [numberLength_eq, ht, List.drop_left, hpl, hdrop, hel] at h ⊢
  split_ifs at h ⊢ with hc
  · exact absurd rfl h
  · refine ⟨whole ++ (point ++ exponent), r, by simp, ⟨whole, point, exponent, rfl, hw, hp, he, ?_⟩, ?_⟩
    · simp only [Bool.and_eq_true, beq_iff_eq, decide_eq_true_eq] at hc
      rw [← List.length_pos_iff]
      omega
    · simp only [List.length_append]
      omega

inductive Spells : TokenKind → Bytes → Prop
  | name {b r} : isLetterByte b = true → (∀ c ∈ r, isWordByte c = true) → Spells .ident (b :: r)
  | numeral {x bs} : Numeral bs → numberValue? (ascii bs) = some x → Spells (.number x) bs
  | operator (op : Operator) : Spells (.operator op) (bytes op.symbol)
  | bracket {k b} : bracket? b = some k → Spells k [b]

def prolongs : TokenKind → UInt8 → Bool
  | .ident, b => isWordByte b
  | .number _, b => isNumeralByte b
  | .operator _, b => b == 61
  | _, _ => false

lemma ofSymbol?_eq_some {s : String} : Operator.ofSymbol? s = some op ↔ op.symbol = s := by
  constructor
  · intro h
    simpa using List.find?_some h
  · rintro rfl
    cases op <;> rfl

lemma ascii_bytes_symbol (op : Operator) : ascii (bytes op.symbol) = op.symbol := by
  cases op <;> rfl

lemma bytes_symbol (op : Operator) : (∃ b, bytes op.symbol = [b]) ∨ ∃ b, bytes op.symbol = [b, 61] := by
  cases op
  case le => exact .inr ⟨60, rfl⟩
  case same => exact .inr ⟨61, rfl⟩
  case ge => exact .inr ⟨62, rfl⟩
  case ne => exact .inr ⟨33, rfl⟩
  all_goals exact .inl ⟨_, rfl⟩

lemma isOperatorByte_symbol (op : Operator) : ∀ b ∈ bytes op.symbol, isOperatorByte b = true := by
  have hall : (bytes op.symbol).all isOperatorByte = true := by cases op <;> rfl
  exact List.all_eq_true.1 hall

lemma ofSymbol?_ascii {bs : Bytes} : Operator.ofSymbol? (ascii bs) = some op ↔ bytes op.symbol = bs := by
  rw [ofSymbol?_eq_some, ← ascii_injective.eq_iff, ascii_bytes_symbol]

lemma operator?_append (op : Operator) (hr : Past (· == 61) rest) :
    operator? (bytes op.symbol ++ rest) = some (op, (bytes op.symbol).length) := by
  have hl : op.symbol.length = (bytes op.symbol).length := by
    rw [← length_ascii, ascii_bytes_symbol]
  unfold operator?
  rcases bytes_symbol op with ⟨b, hb⟩ | ⟨b, hb⟩
  · have h1 := ofSymbol?_ascii.2 hb
    cases rest with
    | nil => simp [hb, h1, hl]
    | cons c r =>
      have h2 : Operator.ofSymbol? (ascii [b, c]) = none := by
        rw [Option.eq_none_iff_forall_ne_some]
        intro o ho
        have hc := past_cons.1 hr
        rcases bytes_symbol o with ⟨d, hd⟩ | ⟨d, hd⟩ <;> simp_all [ofSymbol?_ascii.1 ho]
      simp [hb, h1, h2]
  · have h1 := ofSymbol?_ascii.2 hb
    simp [hb, h1, hl]

lemma operator?_eq_some {bs : Bytes} (h : operator? bs = some (op, n)) :
    ∃ r, bs = bytes op.symbol ++ r ∧ n = (bytes op.symbol).length := by
  unfold operator? at h
  cases h2 : Operator.ofSymbol? (ascii (bs.take 2)) with
  | some o =>
    simp only [h2, Option.some.injEq, Prod.mk.injEq] at h
    obtain ⟨rfl, rfl⟩ := h
    refine ⟨bs.drop 2, ?_, ?_⟩
    · rw [ofSymbol?_ascii.1 h2, List.take_append_drop]
    · rw [← length_ascii, ascii_bytes_symbol]
  | none =>
    cases h1 : Operator.ofSymbol? (ascii (bs.take 1)) with
    | some o =>
      simp only [h2, h1, Option.some.injEq, Prod.mk.injEq] at h
      obtain ⟨rfl, rfl⟩ := h
      have hb := ofSymbol?_ascii.1 h1
      refine ⟨bs.drop 1, by rw [hb, List.take_append_drop], ?_⟩
      have := congrArg List.length hb
      rcases bytes_symbol o with ⟨d, hd⟩ | ⟨d, hd⟩
      · rw [hd]
        rfl
      · rw [hd, List.length_take, List.length_cons, List.length_singleton] at this
        omega
    | none => simp only [h2, h1, reduceCtorEq] at h

lemma Numeral.head {b : UInt8} {r : Bytes} (h : Numeral (b :: r)) : (isDigitByte b || b == 46) = true := by
  obtain ⟨whole, point, exponent, h, hw, hp, -, hne⟩ := h
  cases whole with
  | cons d ds =>
    rw [List.cons_append, List.cons.injEq] at h
    rw [h.1, hw d List.mem_cons_self, Bool.true_or]
  | nil =>
    rcases hp with rfl | ⟨ds, rfl, -⟩
    · rcases hne with hne | hne
      · exact absurd rfl hne
      · cases hne
    · rw [List.nil_append, List.cons_append, List.cons.injEq] at h
      rw [h.1]
      rfl

lemma step_append {k : TokenKind} {b : UInt8} {r : Bytes} (h : Spells k (b :: r)) (hr : Past (prolongs k) rest) :
    step b (r ++ rest) = .token k (b :: r).length := by
  generalize hw : b :: r = w at h
  cases h with
  | @name _ _ hb hc =>
    obtain ⟨rfl, rfl⟩ := List.cons.inj hw
    have ht : (b :: r ++ rest).takeWhile isWordByte = b :: r := by
      refine takeWhile_append_past ?_ hr
      rintro c (_ | ⟨_, hc'⟩)
      · simp [isWordByte, hb]
      · exact hc c hc'
    have hlen := congrArg List.length ht
    simp only [List.cons_append] at hlen
    simp only [step, (letter_byte hb).1, hb, if_true, Bool.false_eq_true, if_false]
    exact congrArg (Step.token .ident) hlen
  | numeral hn hx =>
    subst hw
    obtain ⟨h1, h2, h3, h4⟩ := (numeral_byte hn.head).1
    have hlen := numberLength_append hn hr
    rw [List.cons_append] at hlen
    simp [step, h1, h2, h3, Option.isNone_iff_eq_none.1 h4, hlen, hx]
  | operator op =>
    have hop := operator?_append op hr
    rw [← hw, List.cons_append] at hop
    have hb : isOperatorByte b = true := isOperatorByte_symbol op b (hw ▸ List.mem_cons_self)
    obtain ⟨h1, h2⟩ := (operator_byte hb).1
    simp only [step, h1, h2, hb, hop, if_true, Bool.false_eq_true, if_false, hw]
  | bracket hb =>
    obtain ⟨rfl, rfl⟩ := List.cons.inj hw
    obtain ⟨h1, h2, h3⟩ := (bracket_byte (b := b) (by rw [hb]; rfl)).1
    simp only [step, h1, h2, h3, hb, Bool.false_eq_true, if_false]
    rfl

lemma spells_of_step {k : TokenKind} {b : UInt8} {r : Bytes} (h : step b r = .token k n) :
    ∃ lex rest, b :: r = lex ++ rest ∧ Spells k lex ∧ n = lex.length := by
  simp only [step] at h
  split at h
  · cases h
  split at h
  · rename_i hb
    obtain ⟨rfl, rfl⟩ := Step.token.inj h
    refine ⟨_, _, List.takeWhile_append_dropWhile.symm, ?_, rfl⟩
    rw [List.takeWhile_cons_of_pos (by simp [hb])]
    exact .name hb fun c hc => List.mem_takeWhile_imp hc
  split at h
  · split at h
    · rename_i op n hop
      obtain ⟨rfl, rfl⟩ := Step.token.inj h
      obtain ⟨rest, hr, hn⟩ := operator?_eq_some hop
      exact ⟨_, rest, hr, .operator op, hn⟩
    · cases h
  split at h
  · rename_i k hk
    obtain ⟨rfl, rfl⟩ := Step.token.inj h
    exact ⟨[b], r, rfl, .bracket hk, rfl⟩
  split at h
  · cases h
  · rename_i hn
    obtain ⟨lex, rest, hr, hlex, hl⟩ := numeral_split (by simpa using hn)
    rw [hl, hr, List.take_left] at h
    split at h
    · rename_i x hx
      obtain ⟨rfl, rfl⟩ := Step.token.inj h
      exact ⟨lex, rest, hr, .numeral hlex hx, rfl⟩
    · cases h

lemma Spells.ne_nil {k : TokenKind} {lex : Bytes} (h : Spells k lex) : lex ≠ [] := by
  cases h with
  | name | bracket => exact List.cons_ne_nil _ _
  | numeral hn =>
    rintro rfl
    obtain ⟨whole, point, exponent, h, -, -, -, hne⟩ := hn
    obtain ⟨rfl, hr⟩ := List.append_eq_nil_iff.1 h.symm
    obtain ⟨rfl, -⟩ := List.append_eq_nil_iff.1 hr
    rcases hne with h | h
    · exact h rfl
    · cases h
  | operator op => rcases bytes_symbol op with ⟨b, hb⟩ | ⟨b, hb⟩ <;> rw [hb] <;> exact List.cons_ne_nil _ _

inductive Cuts : Nat → Bytes → List Token → Prop
  | done (pos) : Cuts pos [] []
  | blank {pos b r ts} : isBlankByte b = true → Cuts (pos + 1) r ts → Cuts pos (b :: r) ts
  | token {pos k lex r ts} : Spells k lex → Cuts (pos + lex.length) r ts →
      Cuts pos (lex ++ r) (⟨k, ascii lex, pos⟩ :: ts)

lemma Cuts.blanks {pos : Nat} {r : Bytes} {ts : List Token} : (bs : Bytes) → (∀ b ∈ bs, isBlankByte b = true) →
    Cuts (pos + bs.length) r ts → Cuts pos (bs ++ r) ts
  | [], _, h => h
  | b :: bs, hb, h => by
    refine .blank (hb b List.mem_cons_self) (Cuts.blanks bs (fun c hc => hb c (List.mem_cons_of_mem _ hc)) ?_)
    rwa [Nat.add_assoc, Nat.add_comm 1]

lemma blanks_of_step {b : UInt8} {r : Bytes} (h : step b r = .blanks n) :
    ∃ bs rest, b :: r = bs ++ rest ∧ (∀ c ∈ bs, isBlankByte c = true) ∧ bs ≠ [] ∧ n = bs.length := by
  by_cases hb : isBlankByte b = true
  · rw [step, if_pos hb, Step.blanks.injEq] at h
    refine ⟨_, _, List.takeWhile_append_dropWhile.symm, fun c hc => List.mem_takeWhile_imp hc, ?_, h.symm⟩
    rw [List.takeWhile_cons_of_pos hb]
    exact List.cons_ne_nil _ _
  · simp only [step, hb, Bool.false_eq_true, if_false] at h
    repeat' split at h
    all_goals cases h

lemma length_le_of_append {b : UInt8} {r lex : Bytes} {fuel : Nat} (h : b :: r = lex ++ rest) (hlex : lex ≠ [])
    (hl : (b :: r).length ≤ fuel + 1) : rest.length ≤ fuel := by
  have := List.length_pos_iff.2 hlex
  rw [h, List.length_append] at hl
  omega

lemma cuts_of_scanFrom {fuel : Nat} : ∀ {pos : Nat} {bs : Bytes} {ts : List Token}, bs.length ≤ fuel →
    scanFrom fuel pos bs = .ok ts → Cuts pos bs ts := by
  induction fuel with
  | zero =>
    intro pos bs ts hl h
    obtain rfl := List.length_eq_zero_iff.1 (Nat.le_zero.1 hl)
    rw [scanFrom, Except.ok.injEq] at h
    exact h ▸ .done pos
  | succ fuel ih =>
    intro pos bs ts hl h
    cases bs with
    | nil =>
      rw [scanFrom, Except.ok.injEq] at h
      exact h ▸ .done pos
    | cons b r =>
      rw [scanFrom] at h
      cases hs : step b r with
      | error e => simp only [hs, reduceCtorEq] at h
      | blanks n =>
        obtain ⟨bs, rest, hr, hb, hne, rfl⟩ := blanks_of_step hs
        have hl := length_le_of_append hr hne hl
        simp only [hs, hr, List.drop_left] at h ⊢
        exact Cuts.blanks bs hb (ih hl h)
      | token k n =>
        obtain ⟨lex, rest, hr, hlex, rfl⟩ := spells_of_step hs
        have hl := length_le_of_append hr hlex.ne_nil hl
        simp only [hs, hr, List.drop_left, List.take_left, bind_eq_ok] at h ⊢
        obtain ⟨us, hus, h⟩ := h
        cases h
        exact .token hlex (ih hl hus)

lemma cuts_of_scan {src : Bytes} {ts : List Token} (h : scan src = .ok ts) : Cuts 0 src ts :=
  cuts_of_scanFrom (Nat.le_refl _) h

def Spelled (t : Token) : Prop := ∃ lex, Spells t.kind lex ∧ t.lexeme = ascii lex

lemma Cuts.spelled {pos : Nat} {src : Bytes} {ts : List Token} (h : Cuts pos src ts) : ∀ t ∈ ts, t.Spelled := by
  induction h with
  | done => simp
  | blank _ _ ih => exact ih
  | token hlex _ ih => exact List.forall_mem_cons.2 ⟨⟨_, hlex, rfl⟩, ih⟩

def unplaced (t : Token) : Token := { t with pos := 0 }

/-- A text with the tokens it is cut into: no token is prolonged by what follows it. -/
inductive Lexes : Bytes → List Token → Prop
  | done : Lexes [] []
  | blank {b r ts} : isBlankByte b = true → Lexes r ts → Lexes (b :: r) ts
  | token {k lex r ts} : Spells k lex → Past (prolongs k) r → Lexes r ts →
      Lexes (lex ++ r) (⟨k, ascii lex, 0⟩ :: ts)

lemma scanFrom_of_lexes {bs : Bytes} {us : List Token} (h : Lexes bs us) : ∀ (fuel pos : Nat), bs.length ≤ fuel →
    ∃ ts, scanFrom fuel pos bs = .ok ts ∧ ts.map unplaced = us := by
  induction h with
  | done =>
    intro fuel pos _
    refine ⟨[], ?_, rfl⟩
    cases fuel <;> rfl
  | @blank b r ts hb hr ih =>
    intro fuel pos hl
    obtain _ | fuel := fuel
    · cases hl
    have hl : r.length ≤ fuel := Nat.le_of_succ_le_succ hl
    cases r with
    | nil =>
      obtain ⟨us, hus, h⟩ := ih fuel (pos + 1) hl
      refine ⟨us, ?_, h⟩
      simpa [scanFrom, step, hb] using hus
    | cons c r =>
      by_cases hc : isBlankByte c = true
      -- All blanks are skipped at once, so a further one changes the length of the step only.
      · obtain ⟨us, hus, h⟩ := ih (fuel + 1) (pos + 1) (Nat.le_succ_of_le hl)
        refine ⟨us, ?_, h⟩
        simp only [scanFrom, step, hb, hc, if_true, List.takeWhile_cons_of_pos, List.length_cons,
          List.drop_succ_cons] at hus ⊢
        rw [← hus]
        congr 1
        omega
      · obtain ⟨us, hus, h⟩ := ih fuel (pos + 1) hl
        refine ⟨us, ?_, h⟩
        simpa [scanFrom, step, hb, hc] using hus
  | @token k lex r ts hlex hpast _ ih =>
    intro fuel pos hl
    obtain ⟨b, lex, rfl⟩ := List.exists_cons_of_ne_nil hlex.ne_nil
    obtain _ | fuel := fuel
    · cases hl
    have hl := length_le_of_append (List.cons_append ..) hlex.ne_nil hl
    obtain ⟨us, hus, h⟩ := ih fuel (pos + (b :: lex).length) hl
    refine ⟨⟨k, ascii (b :: lex), pos⟩ :: us, ?_, by rw [List.map_cons, h]; rfl⟩
    rw [List.cons_append, scanFrom, step_append hlex hpast]
    simp only [← List.cons_append, List.drop_left, List.take_left, hus]
    rfl

lemma scan_of_lexes {bs : Bytes} {us : List Token} (h : Lexes bs us) :
    ∃ ts, scan bs = .ok ts ∧ ts.map unplaced = us := scanFrom_of_lexes h _ _ (Nat.le_refl _)

end LandUse.Token

import LandUse.Proofs.Reversal.Layout

namespace LandUse.Token

open Text Alphabet Outcome

variable {src : Bytes} {ts us : List Token}

structure Covers (src : Bytes) (ts : List Token) : Prop where
  ordered : ts.Pairwise fun t u => t.pos < t.past ∧ t.past ≤ u.pos
  text : ∀ t ∈ ts, t.past ≤ src.length ∧ slice src t.pos t.past = bytes t.lexeme
  start : ∀ t ∈ ts.head?, Blanks src 0 t.pos
  gaps : ts.IsChain fun t u => Blanks src t.past u.pos
  ending : ∃ us, ts = us ++ [endAt src.length] ∧ ∀ t ∈ us, t.kind ≠ .eof
  operators : ∀ t ∈ ts, ∀ op, t.kind = .operator op → Operator.ofSymbol? t.lexeme = some op

def spaced (ts : List Token) : Bytes := bytes (" ".intercalate (ts.map (·.lexeme)))

lemma tokenize_eq_ok : tokenize src = .ok ts ↔ ∃ us, scan src = .ok us ∧ ts = us ++ [endAt src.length] := by
  rw [tokenize, bind_eq_ok]
  exact exists_congr fun us => and_congr_right fun _ => ⟨fun h => (Except.ok.inj h).symm, fun h => h ▸ rfl⟩

lemma Stands.bytes_lexeme {t : Token} (h : t.Stands src) : slice src t.pos t.past = bytes t.lexeme := by
  obtain ⟨lex, hlex, hlexeme, hslice⟩ := h
  rw [hslice, hlexeme, bytes_ascii fun b hb => (isGraphicByte_iff.1 (hlex.graphic b hb)).2]

lemma Spells.ne_eof {k : TokenKind} {lex : Bytes} (h : Spells k lex) : k ≠ .eof := by
  cases h with
  | bracket hb =>
    rintro rfl
    unfold bracket? at hb
    split at hb <;> cases hb
  | _ => exact TokenKind.noConfusion

lemma Spells.symbol {op : Operator} {lex : Bytes} (h : Spells (.operator op) lex) : lex = bytes op.symbol := by
  rcases h.byte_cases with ⟨op', hop, rfl⟩ | ⟨hne, -⟩
  · rw [TokenKind.operator.inj hop]
  · exact absurd rfl (hne op)

lemma Laid.chain_end (h : Laid src us) (hlast : Blanks src ((us.getLast?.map past).getD 0) src.length) :
    (us ++ [endAt src.length]).IsChain fun t u => t.pos < t.past ∧ Precedes src t u := by
  refine List.isChain_append.2 ⟨?_, .singleton _, ?_⟩
  · refine h.chain.imp_of_mem_imp fun t u ht _ htu => ⟨(h.stands t ht).lt_past, htu⟩
  · rintro t ht _ ⟨⟩
    have hstands := h.stands t (List.mem_of_getLast? ht)
    rw [ht] at hlast
    exact ⟨hstands.lt_past, hstands.past_le, hlast⟩

lemma covers_of_cuts (h : Cuts 0 src us) : Covers src (us ++ [endAt src.length]) := by
  obtain ⟨hlaid, hfirst, hlast, -⟩ := h.laid [] rfl rfl
  have hchain := hlaid.chain_end hlast
  have hend : slice src src.length src.length = [] := by simp [slice]
  refine ⟨?_, ?_, ?_, hchain.imp fun _ _ h => h.2.blanks, ⟨us, rfl, ?_⟩, ?_⟩
  · -- The step from a token to one further behind goes over the tokens between them, none of which is empty.
    have : Trans (fun t u : Token => t.pos < t.past ∧ t.past ≤ u.pos)
      (fun t u : Token => t.pos < t.past ∧ t.past ≤ u.pos)
        fun t u : Token => t.pos < t.past ∧ t.past ≤ u.pos := ⟨fun h h' => ⟨h.1, by omega⟩⟩
    exact List.isChain_iff_pairwise.1 (hchain.imp fun _ _ h => ⟨h.1, h.2.le⟩)
  · refine List.forall_mem_append.2 ⟨fun t ht => ?_, List.forall_mem_singleton.2 ⟨le_rfl, hend⟩⟩
    exact ⟨(hlaid.stands t ht).past_le, (hlaid.stands t ht).bytes_lexeme⟩
  · rintro t ht
    cases us with
    | nil =>
      cases ht
      exact hfirst
    | cons u us =>
      cases ht
      exact hfirst
  · intro t ht
    obtain ⟨lex, hlex, -⟩ := h.spelled t ht
    exact hlex.ne_eof
  · refine List.forall_mem_append.2 ⟨fun t ht op hop => ?_, List.forall_mem_singleton.2 fun op hop => by cases hop⟩
    obtain ⟨lex, hlex, hlexeme⟩ := h.spelled t ht
    rw [hop] at hlex
    rw [hlexeme, ofSymbol?_ascii, hlex.symbol]

lemma lexes_spaced (h : ∀ t ∈ ts, t.Spelled) {tail : Bytes} (htail : Lexes tail [])
    (hpast : ∀ k, Past (prolongs k) tail) :
    Lexes (spaced ts ++ tail) (ts.map unplaced) := by
  induction ts with
  | nil => exact htail
  | cons t ts ih =>
    obtain ⟨ht, hts⟩ := List.forall_mem_cons.1 h
    have ht' : Spelled ⟨t.kind, t.lexeme, 0⟩ := ht
    cases ts with
    | nil =>
      rw [spaced, List.map_singleton, String.intercalate_singleton]
      exact Lexes.spelled ht' (hpast _) htail
    | cons u ts =>
      have hsplit : spaced (t :: u :: ts) ++ tail = bytes t.lexeme ++ (32 :: (spaced (u :: ts) ++ tail)) := by
        simp only [spaced, List.map_cons, String.intercalate_cons_cons, bytes_append, List.append_assoc]
        rfl
      rw [hsplit]
      exact Lexes.spelled ht' (past_cons.2 (prolongs_blank _ rfl)) (.blank rfl (ih hts))

lemma spaced_concat (us : List Token) (n : Nat) : spaced (us ++ [endAt n]) = spaced us ++
    if us.isEmpty then [] else [32] := by
  induction us with
  | nil => rfl
  | cons t us ih =>
    cases us with
    | nil =>
      simp only [spaced, List.cons_append, List.nil_append, List.map_cons, List.map_nil, String.intercalate_cons_cons,
        String.intercalate_singleton, bytes_append, List.append_assoc]
      rfl
    | cons u us =>
      simp only [spaced, List.cons_append, List.map_cons, String.intercalate_cons_cons, bytes_append,
        List.append_assoc] at ih ⊢
      rw [ih]
      rfl

lemma tokenize_of_lexes {bs : Bytes} {us : List Token} (h : Lexes bs (us.map unplaced)) (n : Nat) :
    ∃ vs, tokenize bs = .ok vs ∧ vs.map unplaced = (us ++ [endAt n]).map unplaced := by
  obtain ⟨vs, hscan, hvs⟩ := scan_of_lexes h
  refine ⟨vs ++ [endAt bs.length], tokenize_eq_ok.2 ⟨vs, hscan, rfl⟩, ?_⟩
  rw [List.map_append, List.map_append, hvs]
  rfl

/-- Tokens cover their source, and their lexemes with blanks between them are cut into the same tokens. -/
theorem tokenize_lossless (h : tokenize src = .ok ts) : Covers src ts ∧ scan src = .ok ts.dropLast ∧
    (∃ us, tokenize (spaced ts) = .ok us ∧ us.map unplaced = ts.map unplaced) ∧
    ∃ us, tokenize (spaced ts.dropLast) = .ok us ∧ us.map unplaced = ts.map unplaced := by
  obtain ⟨us, hscan, rfl⟩ := tokenize_eq_ok.1 h
  have hcuts := cuts_of_scan hscan
  refine ⟨covers_of_cuts hcuts, by rw [List.dropLast_concat, hscan], ?_, ?_⟩
  · rw [spaced_concat]
    refine tokenize_of_lexes (lexes_spaced hcuts.spelled ?_ fun k => ?_) _
    · split
      · exact .done
      · exact .blank rfl .done
    · split
      · exact .nil _
      · exact past_cons.2 (prolongs_blank k rfl)
  · rw [List.dropLast_concat, ← List.append_nil (spaced us)]
    exact tokenize_of_lexes (lexes_spaced hcuts.spelled .done fun k => .nil _) _

theorem tight_source_lossless : ∃ ts, tokenize (bytes "x1<=-.5e3\t* -2") = .ok ts ∧
    ts.map (·.lexeme) = ["x1", "<=", "-", ".5e3", "*", "-", "2", ""] ∧ ts.map (·.pos) = [0, 2, 4, 5, 10, 12, 13, 14] ∧
    Covers (bytes "x1<=-.5e3\t* -2") ts ∧ ∃ us, tokenize (spaced ts) = .ok us ∧ us.map unplaced = ts.map unplaced := by
  have h : tokenize (bytes "x1<=-.5e3\t* -2") = .ok [⟨.ident, "x1", 0⟩, ⟨.operator .le, "<=", 2⟩,
      ⟨.operator .minus, "-", 4⟩, ⟨.number 500, ".5e3", 5⟩, ⟨.operator .times, "*", 10⟩, ⟨.operator .minus, "-", 12⟩,
      ⟨.number 2, "2", 13⟩, endAt 14] := by
    rfl
  obtain ⟨hcovers, -, hspaced, -⟩ := tokenize_lossless h
  exact ⟨_, h, rfl, rfl, hcovers, hspaced⟩

end LandUse.Token

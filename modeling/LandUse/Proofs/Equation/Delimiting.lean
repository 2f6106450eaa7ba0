import LandUse.Proofs.Equation.Elements
import LandUse.Proofs.Evaluation
import LandUse.Proofs.Expansion.Rules

/-! The numbers of operands of its tokens delimit every expression in prefix code. -/

namespace LandUse

def CodeToken.operands? : CodeToken → Option Nat
  | .operation op =>
    match op.arity with
    | .fixed n => some n
    | .list => none
  | .list _ count => some count
  | .loop .. => some 1
  | .number _ | .param .. | .equation _ => some 0

/-- The number of tokens of the first expressions of a code, as many as asked for. -/
def extent : Nat → List CodeToken → Option Nat
  | 0, _ => some 0
  | _ + 1, [] => none
  | n + 1, t :: ts => do
    let k ← t.operands?
    let size ← extent (k + n) ts
    return size + 1

lemma extent_cons {t : CodeToken} {k : Nat} (h : t.operands? = some k) (n : Nat) (ts : List CodeToken) :
    extent (n + 1) (t :: ts) = (extent (k + n) ts).map (1 + ·) := by
  rw [extent, h]
  change ((extent (k + n) ts).bind fun size => some (size + 1)) = _
  cases extent (k + n) ts with
  | none => rfl
  | some size => exact congrArg some (Nat.add_comm size 1)

lemma operands?_binary (op : Operator) : (CodeToken.operation op.opcode).operands? = some 2 := by cases op <;> rfl

lemma Function.pos_of_accepts {fn : Function} {n : Nat} (h : fn.accepts n = true) : 1 ≤ n := by
  rw [accepts, Bool.and_eq_true, decide_eq_true_eq] at h
  have hmin : 1 ≤ fn.minArgs := by cases fn <;> decide
  omega

lemma Function.head_cases {fn : Function} {n : Nat} (h : fn.accepts n = true) :
    n = 1 ∧ fn.keyword?.isSome = true ∧ fn.head n = [] ∨
      ¬ (n = 1 ∧ fn.keyword?.isSome = true) ∧ ∃ t, fn.head n = [t] ∧ t.operands? = some n := by
  unfold head
  cases hk : fn.keyword? with
  | none =>
    refine .inr ⟨by simp, _, rfl, ?_⟩
    have harity : fn.opcode.arity = .fixed fn.minArgs ∧ fn.maxArgs? = some fn.minArgs := by
      cases fn <;> first | exact ⟨rfl, rfl⟩ | cases hk
    simp only [accepts, harity.2, Bool.and_eq_true, decide_eq_true_eq] at h
    have hmin : fn.minArgs = n := by omega
    simp only [CodeToken.operands?, harity.1, hmin]
  | some k =>
    dsimp only
    rcases k.header_cases n with ⟨rfl, hheader⟩ | ⟨rfl, -, hheader⟩ | hheader
    · exact .inl ⟨rfl, rfl, by rw [hheader]; rfl⟩
    · exact .inr ⟨by simp, _, by rw [hheader]; rfl, rfl⟩
    · refine .inr ⟨fun hn => ?_, _, by rw [hheader]; rfl, rfl⟩
      rw [hn.1, Keyword.header, if_pos rfl] at hheader
      cases hheader

lemma extent_head {fn : Function} {n : Nat} (h : fn.accepts n = true) (m : Nat) (ts : List CodeToken) :
    extent (m + 1) (fn.head n ++ ts) = (extent (n + m) ts).map ((fn.head n).length + ·) := by
  rcases Function.head_cases h with ⟨rfl, -, hhead⟩ | ⟨-, t, hhead, ht⟩
  · rw [hhead, List.nil_append, Nat.add_comm 1 m]
    simp
  · rw [hhead]
    exact extent_cons ht m ts

lemma map_add_map (x : Option Nat) (i j : Nat) : (x.map (j + ·)).map (i + ·) = x.map (i + j + ·) := by
  cases x <;> simp [Nat.add_assoc]

mutual

theorem Expr.extent_code (n start : Nat) (rest : List CodeToken) : (e : Expr) → e.Applied →
    extent (n + 1) (e.code start ++ rest) = (extent n rest).map (e.codeSize + ·)
  | .number .., _ | .param .., _ | .equation .., _ => (extent_cons rfl n rest).trans (by rw [Nat.zero_add]; rfl)
  | .negate _ _ arg, h => by
    rw [Expr.code, List.cons_append, extent_cons rfl, Nat.add_comm 1 n, arg.extent_code n _ rest h, map_add_map]
    rfl
  | .binary _ op _ lhs rhs, h => by
    rw [Expr.code, List.cons_append, List.append_assoc, extent_cons (operands?_binary op), Nat.add_comm 2 n,
      lhs.extent_code (n + 1) _ _ h.1, rhs.extent_code n _ rest h.2, map_add_map, map_add_map]
    rfl
  | .group _ arg, h => arg.extent_code n start rest h
  | .call _ fn _ _ _ args, h => by
    rw [Expr.code, List.append_assoc, extent_head h.1, extent_argumentCode n _ rest args h.2, map_add_map]
    rfl
  | .loop _ _ _ _ _ _ arg, h => by
    rw [Expr.code, List.cons_append, extent_cons rfl, Nat.add_comm 1 n, arg.extent_code n _ rest h, map_add_map]
    rfl

theorem extent_argumentCode (n start : Nat) (rest : List CodeToken) : (es : List Expr) → ArgumentsApplied es →
    extent (es.length + n) (argumentCode start es ++ rest) = (extent n rest).map (argumentsSize es + ·)
  | [], _ => by simp [argumentCode, argumentsSize]
  | e :: es, h => by
    rw [argumentCode, List.append_assoc, List.length_cons, Nat.add_right_comm, e.extent_code _ _ _ h.1,
      extent_argumentCode n _ rest es h.2, map_add_map]
    rfl

end

def Span.IsExpression (tokens : List CodeToken) (s : Span) : Prop :=
  ∃ p size : Nat, extent 1 (tokens.drop p) = some size ∧ s = ⟨p, (p : Int) + size - 1⟩

def Tiles (first last : Int) : List Span → Prop
  | [] => first = last + 1
  | s :: ss => s.start = first ∧ s.start ≤ s.stop ∧ Tiles (s.stop + 1) last ss

namespace Element

def head : Element → List CodeToken
  | .number _ value _ => [.number value]
  | .param name subs isVariable _ => [.param name isVariable subs]
  | .operator _ op _ _ _ => [.operation op]
  | .loop keyword dim level _ body => [.loop keyword dim level body]
  | .call fn _ _ _ _ args => fn.head args.length
  | .equation name _ => [.equation name]

def Parts (tokens : List CodeToken) : Element → Prop
  | .operator _ _ unary span operand => unary = true → operand = ⟨span.start + 1, span.stop⟩
  | .loop _ _ _ span body => body = ⟨span.start + 1, span.stop⟩
  | .call fn _ span body _ args => fn.accepts args.length = true ∧
      body = ⟨span.start + (fn.head args.length).length, span.stop⟩ ∧ Tiles body.start body.stop args ∧
      ∀ a ∈ args, a.IsExpression tokens
  | .number .. | .param .. | .equation .. => True

structure Delimited (tokens : List CodeToken) (x : Element) : Prop where
  expression : x.span.IsExpression tokens
  head : ∀ t ∈ x.head, tokens[x.span.start.toNat]? = some t
  parts : x.Parts tokens

end Element

def CodeAt (tokens : List CodeToken) (start : Nat) (code : List CodeToken) : Prop := code <+: tokens.drop start

namespace CodeAt

variable {tokens a b : List CodeToken} {start : Nat}

lemma left (h : CodeAt tokens start (a ++ b)) : CodeAt tokens start a := (List.prefix_append a b).trans h

lemma right (h : CodeAt tokens start (a ++ b)) : CodeAt tokens (start + a.length) b := by
  obtain ⟨rest, hrest⟩ := h
  refine ⟨rest, ?_⟩
  rw [← List.drop_drop, ← hrest, List.append_assoc, List.drop_left]

lemma getElem? {t : CodeToken} (h : CodeAt tokens start (t :: a)) : tokens[start]? = some t := by
  obtain ⟨rest, hrest⟩ := h
  rw [← List.head?_drop, ← hrest]
  rfl

lemma tail {t : CodeToken} (h : CodeAt tokens start (t :: a)) : CodeAt tokens (start + 1) a := right (a := [t]) h

lemma extent {e : Expr} (he : e.Applied) (h : CodeAt tokens start (e.code start)) :
    extent 1 (tokens.drop start) = some e.codeSize := by
  obtain ⟨rest, hrest⟩ := h
  rw [← hrest, e.extent_code 0 start rest he, LandUse.extent]
  rfl

end CodeAt

section Ranges

variable {tokens : List CodeToken}

lemma Expr.codeSize_pos {e : Expr} (he : e.Applied) : 0 < e.codeSize := by
  refine Nat.pos_of_ne_zero fun hsize => ?_
  have hcode : e.code 0 = [] := List.length_eq_zero_iff.1 ((e.length_code 0).trans hsize)
  have hextent := e.extent_code 0 0 [] he
  rw [hcode] at hextent
  cases hextent

lemma tiles_consecutiveSpans : {es : List Expr} → (start : Nat) → ArgumentsApplied es →
    Tiles start ((start : Int) + argumentsSize es - 1) (consecutiveSpans start (es.map Expr.codeSize))
  | [], start, _ => show (start : Int) = start + (0 : Nat) - 1 + 1 by omega
  | e :: es, start, h => by
    have hpos := e.codeSize_pos h.1
    have hrest := tiles_consecutiveSpans (start + e.codeSize) h.2
    rw [List.map_cons, consecutiveSpans, argumentsSize]
    refine ⟨rfl, by dsimp only; omega, ?_⟩
    push_cast at hrest ⊢
    convert hrest using 1 <;> omega

lemma isExpression_consecutiveSpans : {es : List Expr} → {start : Nat} → ArgumentsApplied es →
    CodeAt tokens start (argumentCode start es) →
    ∀ a ∈ consecutiveSpans start (es.map Expr.codeSize), a.IsExpression tokens
  | [], _, _, _, _, ha => by cases ha
  | e :: es, start, he, h, a, ha => by
    rcases List.mem_cons.1 ha with rfl | ha
    · exact ⟨start, e.codeSize, h.left.extent he.1, rfl⟩
    · have hrest := h.right
      rw [Expr.length_code] at hrest
      exact isExpression_consecutiveSpans he.2 hrest a ha

lemma length_consecutiveSpans (ns : List Nat) (start : Nat) : (consecutiveSpans start ns).length = ns.length := by
  induction ns generalizing start with
  | nil => rfl
  | cons n ns ih => rw [consecutiveSpans, List.length_cons, ih, List.length_cons]

mutual

theorem Expr.delimited_codeElements : (e : Expr) → e.Applied → ∀ {start}, CodeAt tokens start (e.code start) →
    ∀ x ∈ e.codeElements start, x.1.Delimited tokens
  | .number .., he, start, h, x, hx | .param .., he, start, h, x, hx | .equation .., he, start, h, x, hx => by
    obtain rfl := List.mem_singleton.1 hx
    refine ⟨⟨start, 1, h.extent he, ?_⟩, List.forall_mem_singleton.2 h.getElem?, trivial⟩
    exact congrArg (Span.mk _) (by omega)
  | .negate span opSpan arg, he, start, h, x, hx => by
    rcases List.mem_cons.1 hx with rfl | hx
    · refine ⟨⟨start, _, h.extent he, ?_⟩, List.forall_mem_singleton.2 h.getElem?, fun _ => rfl⟩
      exact congrArg (Span.mk _) (by rw [Expr.codeSize]; omega)
    · exact arg.delimited_codeElements he h.tail x hx
  | .binary span op opSpan lhs rhs, he, start, h, x, hx => by
    rcases List.mem_cons.1 hx with rfl | hx
    · refine ⟨⟨start, _, h.extent he, ?_⟩, List.forall_mem_singleton.2 h.getElem?, nofun⟩
      exact congrArg (Span.mk _) (by rw [Expr.codeSize]; omega)
    rcases List.mem_append.1 hx with hx | hx
    · exact lhs.delimited_codeElements he.1 h.tail.left x hx
    · have hrhs := h.tail.right
      rw [Expr.length_code] at hrhs
      exact rhs.delimited_codeElements he.2 hrhs x hx
  | .group _ arg, he, _, h, x, hx => arg.delimited_codeElements he h x hx
  | .call span fn level body seps args, he, start, h, x, hx => by
    have hcode : CodeAt tokens start (fn.head args.length ++ _) := h
    rcases List.mem_cons.1 hx with rfl | hx
    · have hlength : (consecutiveSpans (start + (fn.head args.length).length) (args.map Expr.codeSize)).length =
          args.length := (length_consecutiveSpans _ _).trans (List.length_map _)
      refine ⟨⟨start, _, h.extent he, ?_⟩, fun t ht => ?_, ?_⟩
      · exact congrArg (Span.mk _) (by rw [Expr.codeSize]; omega)
      · rw [Element.head, hlength] at ht
        rcases Function.head_cases he.1 with ⟨-, -, hhead⟩ | ⟨-, t', hhead, -⟩
        · rw [hhead] at ht
          cases ht
        · rw [hhead] at ht hcode
          rw [List.mem_singleton.1 ht]
          exact hcode.getElem?
      · have htiles := tiles_consecutiveSpans (start + (fn.head args.length).length) he.2
        push_cast at htiles
        rw [Element.Parts, hlength]
        exact ⟨he.1, rfl, htiles, isExpression_consecutiveSpans he.2 hcode.right⟩
    · exact delimited_argumentCodeElements args he.2 hcode.right x hx
  | .loop _ _ _ _ _ _ arg, he, start, h, x, hx => by
    rcases List.mem_cons.1 hx with rfl | hx
    · have hbody : (start : Int) + (arg.code (start + 1)).length = start + arg.codeSize := by rw [Expr.length_code]
      refine ⟨⟨start, _, h.extent he, ?_⟩, List.forall_mem_singleton.2 ?_, rfl⟩
      · exact congrArg (Span.mk _) (by rw [Expr.codeSize]; omega)
      · rw [← hbody]
        exact h.getElem?
    · exact arg.delimited_codeElements he h.tail x hx

theorem delimited_argumentCodeElements : (es : List Expr) → ArgumentsApplied es → ∀ {start},
    CodeAt tokens start (argumentCode start es) → ∀ x ∈ argumentCodeElements start es, x.1.Delimited tokens
  | [], _, _, _, _, hx => by cases hx
  | e :: es, he, start, h, x, hx => by
    rcases List.mem_append.1 hx with hx | hx
    · exact e.delimited_codeElements he.1 h.left x hx
    · have hrest := h.right
      rw [Expr.length_code] at hrest
      exact delimited_argumentCodeElements es he.2 hrest x hx

end

end Ranges

/-! ### The elements of the tokens -/

def Element.isSingle : Element → Bool
  | .call fn _ _ _ _ args => fn.keyword?.isSome && args.length == 1
  | _ => false

mutual

theorem Expr.marked_codeElements : (e : Expr) → e.Applied → ∀ start, ∀ x ∈ e.codeElements start, x.2 = !x.1.isSingle
  | .number .., _, _, _, hx | .param .., _, _, _, hx | .equation .., _, _, _, hx => by
    rw [List.mem_singleton.1 hx]
    rfl
  | .negate _ _ arg, h, _, x, hx | .loop _ _ _ _ _ _ arg, h, _, x, hx => by
    rcases List.mem_cons.1 hx with rfl | hx
    · rfl
    · exact arg.marked_codeElements h _ x hx
  | .binary _ _ _ lhs rhs, h, _, x, hx => by
    rcases List.mem_cons.1 hx with rfl | hx
    · rfl
    rcases List.mem_append.1 hx with hx | hx
    · exact lhs.marked_codeElements h.1 _ x hx
    · exact rhs.marked_codeElements h.2 _ x hx
  | .group _ arg, h, start, x, hx => arg.marked_codeElements h start x hx
  | .call _ fn _ _ _ args, h, start, x, hx => by
    rcases List.mem_cons.1 hx with rfl | hx
    · rw [Element.isSingle, length_consecutiveSpans, List.length_map]
      rcases Function.head_cases h.1 with ⟨hone, hk, hhead⟩ | ⟨hne, t, hhead, -⟩
      · rw [hhead, hk, hone]
        rfl
      · have hsingle : (fn.keyword?.isSome && args.length == 1) = false := by
          rw [Bool.and_eq_false_iff]
          by_cases hk : fn.keyword?.isSome = true
          · exact .inr (beq_eq_false_iff_ne.2 fun hone => hne ⟨hone, hk⟩)
          · exact .inl (Bool.eq_false_iff.2 hk)
        simp [hhead, hsingle]
    · exact marked_argumentCodeElements args h.2 _ x hx

theorem marked_argumentCodeElements : (es : List Expr) → ArgumentsApplied es → ∀ start,
    ∀ x ∈ argumentCodeElements start es, x.2 = !x.1.isSingle
  | [], _, _, _, hx => by cases hx
  | e :: es, h, _, x, hx => by
    rcases List.mem_append.1 hx with hx | hx
    · exact e.marked_codeElements h.1 _ x hx
    · exact marked_argumentCodeElements es h.2 _ x hx

end

def positionsFrom (start size : Nat) : List Int := (List.range' start size).map Int.ofNat

lemma positionsFrom_add (start m n : Nat) :
    positionsFrom start (m + n) = positionsFrom start m ++ positionsFrom (start + m) n := by
  rw [positionsFrom, positionsFrom, positionsFrom, ← List.map_append, List.range'_append_1]

mutual

theorem Expr.starts_codeElements : (e : Expr) → e.Applied → ∀ start,
    (Elements.recorded (e.codeElements start)).map (·.span.start) = positionsFrom start e.codeSize
  | .number .., _, _ | .param .., _, _ | .equation .., _, _ => rfl
  | .negate _ _ arg, h, start | .loop _ _ _ _ _ _ arg, h, start => by
    rw [Expr.codeElements, Elements.recorded_cons, List.map_cons, arg.starts_codeElements h, Expr.codeSize,
      positionsFrom_add]
    rfl
  | .binary _ _ _ lhs rhs, h, start => by
    rw [Expr.codeElements, Elements.recorded_cons, Elements.recorded_append, List.map_cons, List.map_append,
      lhs.starts_codeElements h.1, rhs.starts_codeElements h.2, Expr.codeSize, Nat.add_assoc, positionsFrom_add,
      positionsFrom_add]
    rfl
  | .group _ arg, h, start => arg.starts_codeElements h start
  | .call _ fn _ _ _ args, h, start => by
    rw [Expr.codeElements, Expr.codeSize, positionsFrom_add, ← starts_argumentCodeElements args h.2]
    rcases Function.head_cases h.1 with ⟨-, -, hhead⟩ | ⟨-, t, hhead, -⟩ <;> rw [hhead] <;> rfl

theorem starts_argumentCodeElements : (es : List Expr) → ArgumentsApplied es → ∀ start,
    (Elements.recorded (argumentCodeElements start es)).map (·.span.start) = positionsFrom start (argumentsSize es)
  | [], _, _ => rfl
  | e :: es, h, start => by
    rw [argumentCodeElements, Elements.recorded_append, List.map_append, e.starts_codeElements h.1,
      starts_argumentCodeElements es h.2, argumentsSize, positionsFrom_add]

end

lemma nodup_positionsFrom (start size : Nat) : (positionsFrom start size).Nodup :=
  List.Nodup.map (fun _ _ => Int.ofNat.inj) List.nodup_range'

lemma filter_eq_singleton {β γ : Type} [BEq γ] [LawfulBEq γ] {f : β → γ} {l : List β} (h : (l.map f).Nodup) {x : β}
    (hx : x ∈ l) : l.filter (f · == f x) = [x] := by
  induction l with
  | nil => cases hx
  | cons y l ih =>
    rw [List.map_cons, List.nodup_cons] at h
    rcases List.mem_cons.1 hx with rfl | hx
    · have hnone : l.filter (f · == f x) = [] :=
        List.filter_eq_nil_iff.2 fun z hz hzx => h.1 (beq_iff_eq.1 hzx ▸ List.mem_map_of_mem hz)
      rw [List.filter_cons, if_pos (beq_self_eq_true _), hnone]
    · have hne : ¬ (f y == f x) = true := fun hy => h.1 (beq_iff_eq.1 hy ▸ List.mem_map_of_mem hx)
      rw [List.filter_cons, if_neg hne, ih h.2 hx]

lemma elementsAt_code {e : Expr} (he : e.Applied) (name : String) {p : Nat} (hp : p < e.codeSize) :
    ∃ x, (Code.ofExpr name e).elements.elementsAt p = [x] ∧ x.span.start = p ∧ (x, true) ∈ e.codeElements 0 := by
  have hstarts := e.starts_codeElements he 0
  have hmem : (p : Int) ∈ (Elements.recorded (e.codeElements 0)).map (·.span.start) := by
    rw [hstarts]
    exact List.mem_map_of_mem (List.mem_range'_1.2 ⟨Nat.zero_le p, by omega⟩)
  obtain ⟨x, hx, hstart⟩ := List.mem_map.1 hmem
  refine ⟨x, ?_, hstart, ?_⟩
  · have hnodup : ((Elements.recorded (e.codeElements 0)).map (·.span.start)).Nodup := hstarts ▸ nodup_positionsFrom _ _
    rw [Code.ofExpr, Elements.elementsAt_ofList, ← hstart]
    exact filter_eq_singleton hnodup hx
  · obtain ⟨⟨y, marked⟩, hy, rfl⟩ := List.mem_map.1 hx
    obtain ⟨hy, hmarked⟩ := List.mem_filter.1 hy
    cases hmarked
    exact hy

lemma applied_of_parseBytes {symbols : Symbols} {self : String} {src : Text.Bytes} {e : Expr}
    (h : parseBytes symbols self src = .ok e) : e.Applied := by
  obtain ⟨ts, p, -, hp, rfl⟩ := Grammar.derivation_of_parseBytes h
  exact hp.derives.applied _

lemma Function.head_ne_loop (fn : Function) (n : Nat) (keyword : Keyword) (dim : String) (level : Nat) (body : Span) :
    fn.head n ≠ [.loop keyword dim level body] := by
  unfold head
  cases fn.keyword? with
  | none => simp
  | some k => rcases k.header_cases n with ⟨-, h⟩ | ⟨-, -, h⟩ | h <;> simp [h, Header.tokens]

lemma Element.Delimited.eq_loop {tokens : List CodeToken} {x : Element} (h : x.Delimited tokens)
    (hx : x.isSingle = false)
    {keyword : Keyword} {dim : String} {level : Nat} {body : Span}
    (ht : tokens[x.span.start.toNat]? = some (.loop keyword dim level body)) :
    x = .loop keyword dim level x.span body := by
  have hhead : x.head = [.loop keyword dim level body] := by
    obtain ⟨t, hhead⟩ : ∃ t, x.head = [t] := by
      cases x with
      | call fn level span body seps args =>
        rcases Function.head_cases h.parts.1 with ⟨hone, hk, -⟩ | ⟨-, t, hhead, -⟩
        · rw [isSingle, hk, hone] at hx
          cases hx
        · exact ⟨t, hhead⟩
      | _ => exact ⟨_, rfl⟩
    rw [hhead, Option.some.inj ((h.head t (hhead ▸ List.mem_singleton_self t)).symm.trans ht)]
  cases x with
  | loop => cases hhead; rfl
  | call fn level span body seps args => exact absurd hhead (fn.head_ne_loop _ _ _ _ _)
  | _ => cases hhead

/-- Whatever starts at a token, by the numbers of operands, ends where the range of its element does. -/
theorem code_delimited {symbols : Symbols} {self : String} {src : Text.Bytes} {e : Expr}
    (h : parseBytes symbols self src = .ok e) :
    extent 1 (Code.ofExpr self e).tokens = some (Code.ofExpr self e).tokens.length ∧
    (∀ p < (Code.ofExpr self e).tokens.length, ∃ x size, (Code.ofExpr self e).elements.elementsAt p = [x] ∧
      extent 1 ((Code.ofExpr self e).tokens.drop p) = some size ∧ x.span = ⟨p, (p : Int) + size - 1⟩ ∧
      (∀ keyword dim level body, (Code.ofExpr self e).tokens[p]? = some (.loop keyword dim level body) →
        x = .loop keyword dim level x.span body ∧ body = ⟨p + 1, x.span.stop⟩) ∧
      ∀ symbol op operand, x = .operator symbol op true x.span operand → operand = ⟨p + 1, x.span.stop⟩) ∧
    ∀ fn level span body seps args, .call fn level span body seps args ∈ (Code.ofExpr self e).elements.list →
      args ≠ [] ∧ Tiles body.start body.stop args ∧ body.stop = span.stop ∧
      ∀ a ∈ args, a.IsExpression (Code.ofExpr self e).tokens := by
  have he := applied_of_parseBytes h
  have hcode : CodeAt (e.code 0) 0 (e.code 0) := List.prefix_rfl
  have hdelimited := e.delimited_codeElements he hcode
  refine ⟨?_, fun p hp => ?_, fun fn level span body seps args hcall => ?_⟩
  · exact (hcode.extent he).trans (congrArg some (e.length_code 0).symm)
  · obtain ⟨x, hat, hstart, hmem⟩ := elementsAt_code he self ((e.length_code 0).symm ▸ hp : p < e.codeSize)
    have hx := hdelimited _ hmem
    have hsingle : x.isSingle = false := by
      have hmarked := e.marked_codeElements he 0 _ hmem
      simpa using hmarked.symm
    obtain ⟨q, size, hextent, hspan⟩ := hx.expression
    obtain rfl : q = p := by
      rw [hspan] at hstart
      exact Int.ofNat.inj hstart
    refine ⟨x, size, hat, hextent, hspan, fun keyword dim level body ht => ?_, fun symbol op operand heq => ?_⟩
    · have htoken : (e.code 0)[x.span.start.toNat]? = some (.loop keyword dim level body) := by
        rw [hstart]
        exact ht
      have heq := hx.eq_loop hsingle htoken
      have hparts := hx.parts
      rw [heq] at hparts
      exact ⟨heq, hparts.trans (by rw [hstart])⟩
    · have hparts := hx.parts
      rw [heq] at hparts
      exact (hparts rfl).trans (by rw [hstart])
  · obtain ⟨⟨y, marked⟩, hy, heq⟩ := List.mem_map.1 hcall
    obtain rfl : y = .call fn level span body seps args := heq
    obtain ⟨haccepts, hbody, htiles, hargs⟩ := (hdelimited _ hy).parts
    refine ⟨?_, htiles, by rw [hbody], hargs⟩
    rintro rfl
    exact absurd (Function.pos_of_accepts haccepts) (by decide)

theorem product_delimited : ∃ e,
    parseBytes Grammar.parametersOnly "q" (Text.bytes "-sum\x7bOPTIONS\x7d(a) * max(b, sum(c), 2)") = .ok e ∧
    extent 1 (Code.ofExpr "q" e).tokens = some 8 ∧
    ∃ x, (Code.ofExpr "q" e).elements.elementsAt 1 = [x] ∧ x.span = ⟨1, 3⟩ := by
  have hrun : (parseBytes Grammar.parametersOnly "q"
      (Text.bytes "-sum\x7bOPTIONS\x7d(a) * max(b, sum(c), 2)")).toOption.any (fun e =>
        (Code.ofExpr "q" e).tokens.length == 8 && extent 1 ((Code.ofExpr "q" e).tokens.drop 1) == some 3) = true := by
    decide +kernel
  obtain ⟨e, he, hrun⟩ := Outcome.exists_of_any hrun
  simp only [Bool.and_eq_true, beq_iff_eq] at hrun
  obtain ⟨hwhole, hat, -⟩ := code_delimited he
  obtain ⟨x, size, hx, hsize, hspan, -⟩ := hat 1 (by rw [hrun.1]; decide)
  obtain rfl : size = 3 := Option.some.inj (hsize.symm.trans hrun.2)
  exact ⟨e, he, hrun.1 ▸ hwhole, x, hx, hspan⟩

end LandUse

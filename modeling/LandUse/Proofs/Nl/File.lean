import LandUse.Nl.Text
import LandUse.Nl.Bodies
import LandUse.Proofs.Expansion.Contents
import LandUse.Proofs.Number.Numeral
import Mathlib

/-! Model files as they are read; all counts follow from the constraints, objectives and variables. -/

namespace LandUse

namespace Instr

variable {α : Type}

def isVar (k : Int) : Instr α → Bool
  | .var i => i == k
  | _ => false

lemma any_isVar {code : List (Instr α)} {k : Int} : code.any (·.isVar k) = true ↔ .var k ∈ code := by
  rw [List.any_eq_true]
  constructor
  · rintro ⟨i, hi, hk⟩
    cases i <;> simp_all [isVar]
  · exact fun h => ⟨_, h, by simp [isVar]⟩

lemma mem_insert {k j : Int} {is : List Int} : j ∈ insert k is ↔ j = k ∨ j ∈ is := by
  induction is with
  | nil => simp [insert]
  | cons i is ih =>
    unfold insert
    split
    · simp_all
    · split
      · simp
      · simp only [List.mem_cons, ih]
        tauto

lemma pairwise_insert {k : Int} {is : List Int} (h : is.Pairwise (· < ·)) : (insert k is).Pairwise (· < ·) := by
  induction h with
  | nil => exact List.pairwise_singleton _ _
  | @cons i is hi his ih =>
    unfold insert
    split
    · exact .cons hi his
    · rename_i hne
      rw [beq_iff_eq] at hne
      split
      · rename_i hlt
        refine .cons ?_ (.cons hi his)
        exact List.forall_mem_cons.2 ⟨hlt, fun j hj => hlt.trans (hi j hj)⟩
      · refine .cons (fun j hj => ?_) ih
        rcases mem_insert.1 hj with rfl | hj
        · omega
        · exact hi j hj

lemma mem_offsets {code : List (Instr α)} {k : Int} : k ∈ offsets code ↔ .var k ∈ code := by
  induction code with
  | nil => simp [offsets]
  | cons i code ih => cases i <;> simp [offsets, mem_insert, ih]

lemma pairwise_offsets (code : List (Instr α)) : (offsets code).Pairwise (· < ·) := by
  induction code with
  | nil => exact .nil
  | cons i code ih =>
    cases i with
    | var k => exact pairwise_insert ih
    | _ => exact ih

def occurring (n : Nat) (code : List (Instr α)) : List Nat := (List.range n).filter fun k => code.any (·.isVar k)

lemma mem_occurring {n k : Nat} {code : List (Instr α)} : k ∈ occurring n code ↔ k < n ∧ .var (k : Int) ∈ code := by
  rw [occurring, List.mem_filter, List.mem_range, any_isVar]

lemma offsets_eq_occurring {n : Nat} {code : List (Instr α)} (h : ∀ i ∈ code, i.Plain n) :
    offsets code = (occurring n code).map Int.ofNat := by
  have hascending : ((occurring n code).map Int.ofNat).Pairwise (· < ·) := by
    rw [List.pairwise_map]
    exact (List.pairwise_lt_range.filter _).imp Int.ofNat_lt.2
  refine (pairwise_offsets code).eq_of_mem_iff hascending fun k => ?_
  rw [mem_offsets, List.mem_map]
  constructor
  · intro hk
    obtain ⟨hnonneg, hlt⟩ : 0 ≤ k ∧ k < n := h _ hk
    refine ⟨k.toNat, mem_occurring.2 ⟨by omega, ?_⟩, Int.toNat_of_nonneg hnonneg⟩
    rwa [Int.toNat_of_nonneg hnonneg]
  · rintro ⟨j, hj, rfl⟩
    exact (mem_occurring.1 hj).2

end Instr

namespace Nl

structure File.Row where
  op : Comparison
  rhs : Float
  code : List (Instr Float)

structure File.Goal where
  sense : Sense
  code : List (Instr Float)

structure File.Unknown where
  kind : VariableKind
  lower : Float
  upper : Float
  guess : Float

structure File where
  rows : List File.Row
  goals : List File.Goal
  unknowns : List File.Unknown
  rows_closed : ∀ r ∈ rows, ∀ i ∈ r.code, i.Plain unknowns.length
  goals_closed : ∀ g ∈ goals, ∀ i ∈ g.code, i.Plain unknowns.length
  discrete_last : ∀ i u, unknowns[i]? = some u →
    (u.kind ≠ .real ↔ unknowns.length ≤ i + unknowns.countP (·.kind != .real))

def instrLines : Instr Float → List String
  | .op op => ["o" ++ toString op.code]
  | .list op count => ["o" ++ toString op.code, toString count]
  | .num x => ["n" ++ number x]
  | .var k => ["v" ++ toString k]

def rangeLine (op : Comparison) (rhs : Float) : String :=
  toString op.rangeCode ++ if op = .none then "" else " " ++ number rhs

def boundsLine (lower upper : Float) : String :=
  let low := lower != -Number.infinity
  let high := upper != Number.infinity
  if low && high then
    if lower == upper then "4 " ++ number lower else "0 " ++ number lower ++ " " ++ number upper
  else if high then "1 " ++ number upper
  else if low then "2 " ++ number lower
  else "3"

def headerLine (counts : List Nat) (note : String) : String :=
  String.join (counts.map fun n => " " ++ toString n) ++ "\t# " ++ note

def unlines (lines : List String) : String := String.join (lines.map (· ++ "\n"))

namespace File

def block (f : File) (code : List (Instr Float)) : List Nat := Instr.occurring f.unknowns.length code

def entriesUpTo (f : File) (v : Nat) : Nat := (f.rows.map fun r => (f.block r.code).countP (· ≤ v)).sum

def equalities (f : File) : Nat := f.rows.countP (·.op.rangeCode == 4)

def discrete (f : File) : Nat := f.unknowns.countP (·.kind != .real)

def jacobianEntries (f : File) : Nat := (f.rows.map fun r => (f.block r.code).length).sum

def gradientEntries (f : File) : Nat := (f.goals.map fun g => (f.block g.code).length).sum

def stats (f : File) : Stats where
  unknowns := f.unknowns.length
  constraints := f.rows.length
  objectives := f.goals.length
  equalities := f.equalities
  discrete := f.discrete
  jacobianNonzeros := f.jacobianEntries
  gradientNonzeros := f.gradientEntries

def headerLines (f : File) : List String :=
  ["g3 1 1 0\t# problem mosra",
    headerLine [f.unknowns.length, f.rows.length, f.goals.length, 0, f.equalities, 0]
      "vars, constraints, objectives, ranges, eqns, lcons",
    headerLine [f.rows.length, f.goals.length] "nonlinear constraints, objectives",
    headerLine [0, 0] "network constraints: nonlinear, linear",
    headerLine [f.unknowns.length, f.unknowns.length, f.unknowns.length]
      "nonlinear vars in constraints, objectives, both",
    headerLine [0, 0, 0, 1] "linear network variables; functions; arith, flags",
    headerLine [0, 0, f.discrete, 0, 0] "discrete variables: binary, integer, nonlinear (b,c,o)",
    headerLine [f.jacobianEntries, f.gradientEntries] "nonzeros in Jacobian, gradients",
    headerLine [0, 0] "max name lengths: constraints, variables",
    headerLine [0, 0, 0, 0, 0] "common exprs: b,c,o,c1,o1"]

def bodyLines (heading : String) (code : List (Instr Float)) : List String := heading :: code.flatMap instrLines

def blockLines (f : File) (letter : String) (k : Nat) (code : List (Instr Float)) : List String :=
  (letter ++ toString k ++ " " ++ toString (f.block code).length) :: (f.block code).map fun v => toString v ++ " 0"

def constraintLines (f : File) : List String :=
  f.rows.zipIdx.flatMap fun (r, k) => bodyLines ("C" ++ toString k) r.code

def objectiveLines (f : File) : List String :=
  f.goals.zipIdx.flatMap fun (g, k) =>
    bodyLines ("O" ++ toString k ++ if g.sense = .maximize then " 1" else " 0") g.code

def guessLines (f : File) : List String :=
  if f.unknowns = [] then []
  else ("x" ++ toString f.unknowns.length) :: f.unknowns.zipIdx.map fun (u, v) => toString v ++ " " ++ number u.guess

def rangeLines (f : File) : List String :=
  if f.rows = [] then [] else "r" :: f.rows.map fun r => rangeLine r.op r.rhs

def boundLines (f : File) : List String :=
  if f.unknowns = [] then [] else "b" :: f.unknowns.map fun u => boundsLine u.lower u.upper

def countLines (f : File) : List String :=
  if f.rows ≠ [] ∧ 1 < f.unknowns.length then
    ("k" ++ toString (f.unknowns.length - 1)) ::
      (List.range (f.unknowns.length - 1)).map fun v => toString (f.entriesUpTo v)
  else []

def jacobianLines (f : File) : List String := f.rows.zipIdx.flatMap fun (r, k) => f.blockLines "J" k r.code

def gradientLines (f : File) : List String := f.goals.zipIdx.flatMap fun (g, k) => f.blockLines "G" k g.code

def lines (f : File) : List String :=
  f.headerLines ++ f.constraintLines ++ f.objectiveLines ++ f.guessLines ++ f.rangeLines ++ f.boundLines ++
    f.countLines ++ f.jacobianLines ++ f.gradientLines

def text (f : File) : String := unlines f.lines

end File

def Line (s : String) : Prop := '\n' ∉ s.toList

instance (s : String) : Decidable (Line s) := inferInstanceAs (Decidable (¬ _))

lemma Line.append {s t : String} (hs : Line s) (ht : Line t) : Line (s ++ t) := by
  unfold Line
  rw [String.toList_append, List.mem_append]
  exact fun h => h.elim hs ht

lemma line_of_numeral {s : String} (h : Number.Numeral s) : Line s := h.not_mem (by decide)

lemma line_nat (n : Nat) : Line (toString n) := line_of_numeral (Number.numeral_toString n)

lemma line_int (k : Int) : Line (toString k) := line_of_numeral (Number.numeral_toString_int k)

lemma line_number (x : Float) : Line (number x) := by
  apply line_of_numeral
  unfold number
  cases h : Number.plain? x with
  | none => exact Number.numeral_general x
  | some s => exact Number.numeral_plain? h

lemma line_instr (i : Instr Float) : ∀ l ∈ instrLines i, Line l := by
  have hletter : Line "o" ∧ Line "n" ∧ Line "v" := by decide
  cases i with
  | op op => exact List.forall_mem_singleton.2 (hletter.1.append (line_int op.code))
  | list op count =>
    refine List.forall_mem_cons.2 ⟨hletter.1.append (line_int op.code), ?_⟩
    exact List.forall_mem_singleton.2 (line_nat count)
  | num x => exact List.forall_mem_singleton.2 (hletter.2.1.append (line_number x))
  | var k => exact List.forall_mem_singleton.2 (hletter.2.2.append (line_int k))

lemma line_range (op : Comparison) (rhs : Float) : Line (rangeLine op rhs) := by
  apply (line_nat _).append
  split
  · decide
  · exact Line.append (by decide) (line_number rhs)

lemma line_bounds (lower upper : Float) : Line (boundsLine lower upper) := by
  have hlower := line_number lower
  have hupper := line_number upper
  have hcode : ∀ code ∈ ["0 ", "1 ", "2 ", "4 ", " "], Line code := by decide
  unfold boundsLine
  dsimp only
  split
  · split
    · exact (hcode "4 " (by simp)).append hlower
    · exact (((hcode "0 " (by simp)).append hlower).append (hcode " " (by simp))).append hupper
  · split
    · exact (hcode "1 " (by simp)).append hupper
    · split
      · exact (hcode "2 " (by simp)).append hlower
      · decide

lemma line_header (counts : List Nat) {note : String} (h : Line note) : Line (headerLine counts note) := by
  have hcounts : Line (String.join (counts.map fun n => " " ++ toString n)) := by
    induction counts with
    | nil => decide
    | cons n counts ih =>
      rw [List.map_cons, String.join_cons]
      exact (Line.append (by decide) (line_nat n)).append ih
  exact (hcounts.append (by decide)).append h

namespace File

lemma line_body {heading : String} (h : Line heading) (code : List (Instr Float)) :
    ∀ l ∈ bodyLines heading code, Line l := by
  refine List.forall_mem_cons.2 ⟨h, fun l hl => ?_⟩
  obtain ⟨i, -, hi⟩ := List.mem_flatMap.1 hl
  exact line_instr i l hi

lemma line_block (f : File) {letter : String} (h : Line letter) (k : Nat) (code : List (Instr Float)) :
    ∀ l ∈ f.blockLines letter k code, Line l := by
  refine List.forall_mem_cons.2 ⟨?_, fun l hl => ?_⟩
  · exact ((h.append (line_nat k)).append (by decide)).append (line_nat _)
  · obtain ⟨v, -, rfl⟩ := List.mem_map.1 hl
    exact (line_nat v).append (by decide)

lemma line_of_mem (f : File) : ∀ l ∈ f.lines, Line l := by
  have hheader : ∀ l ∈ f.headerLines, Line l := by
    intro l hl
    simp only [headerLines, List.mem_cons, List.not_mem_nil, or_false] at hl
    rcases hl with rfl | rfl | rfl | rfl | rfl | rfl | rfl | rfl | rfl | rfl
    · decide
    all_goals exact line_header _ (by decide)
  have hbody : ∀ l ∈ f.constraintLines ++ f.objectiveLines, Line l := by
    rw [List.forall_mem_append]
    constructor
    · intro l hl
      obtain ⟨⟨r, k⟩, -, hl⟩ := List.mem_flatMap.1 hl
      exact line_body (Line.append (by decide) (line_nat k)) _ l hl
    · intro l hl
      obtain ⟨⟨g, k⟩, -, hl⟩ := List.mem_flatMap.1 hl
      refine line_body (Line.append (.append (by decide) (line_nat k)) ?_) _ l hl
      split <;> decide
  have hguess : ∀ l ∈ f.guessLines, Line l := by
    unfold guessLines
    split
    · exact List.forall_mem_nil _
    · refine List.forall_mem_cons.2 ⟨Line.append (by decide) (line_nat _), fun l hl => ?_⟩
      obtain ⟨⟨u, v⟩, -, rfl⟩ := List.mem_map.1 hl
      exact ((line_nat v).append (by decide)).append (line_number _)
  have hrange : ∀ l ∈ f.rangeLines, Line l := by
    unfold rangeLines
    split
    · exact List.forall_mem_nil _
    · refine List.forall_mem_cons.2 ⟨by decide, fun l hl => ?_⟩
      obtain ⟨r, -, rfl⟩ := List.mem_map.1 hl
      exact line_range r.op r.rhs
  have hbound : ∀ l ∈ f.boundLines, Line l := by
    unfold boundLines
    split
    · exact List.forall_mem_nil _
    · refine List.forall_mem_cons.2 ⟨by decide, fun l hl => ?_⟩
      obtain ⟨u, -, rfl⟩ := List.mem_map.1 hl
      exact line_bounds u.lower u.upper
  have hcount : ∀ l ∈ f.countLines, Line l := by
    unfold countLines
    split
    · refine List.forall_mem_cons.2 ⟨Line.append (by decide) (line_nat _), fun l hl => ?_⟩
      obtain ⟨v, -, rfl⟩ := List.mem_map.1 hl
      exact line_nat _
    · exact List.forall_mem_nil _
  have hjacobian : ∀ l ∈ f.jacobianLines, Line l := by
    intro l hl
    obtain ⟨⟨r, k⟩, -, hl⟩ := List.mem_flatMap.1 hl
    exact f.line_block (by decide) k r.code l hl
  have hgradient : ∀ l ∈ f.gradientLines, Line l := by
    intro l hl
    obtain ⟨⟨g, k⟩, -, hl⟩ := List.mem_flatMap.1 hl
    exact f.line_block (by decide) k g.code l hl
  simp only [lines, List.forall_mem_append] at hbody ⊢
  exact ⟨⟨⟨⟨⟨⟨⟨⟨hheader, hbody.1⟩, hbody.2⟩, hguess⟩, hrange⟩, hbound⟩, hcount⟩, hjacobian⟩, hgradient⟩

end File

end Nl

end LandUse

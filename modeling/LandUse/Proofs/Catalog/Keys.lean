import LandUse.Catalog
import LandUse.Proofs.Number.Numeral

/-! Zero characters stand between the parts of a key, so a key tells its tuple. -/

namespace LandUse

def zeroChar : Char := Char.ofNat 0

def PlainName (s : String) : Prop := ∀ c ∈ s.toList, c ≠ zeroChar ∧ c ≠ '=' ∧ c ≠ '|'

section Separated

variable {β : Type} {x : β}

lemma append_unique {a b r s : List β} (ha : x ∉ a) (hb : x ∉ b) (hr : ∀ c ∈ r.head?, c = x) (hs : ∀ c ∈ s.head?, c = x)
    (h : a ++ r = b ++ s) : a = b ∧ r = s := by
  induction a generalizing b with
  | nil =>
    cases b with
    | nil => exact ⟨rfl, h⟩
    | cons y b =>
      have hy : y = x := hr y (by rw [← List.nil_append r, h]; rfl)
      exact absurd (hy ▸ List.mem_cons_self) hb
  | cons y a ih =>
    cases b with
    | nil =>
      have hy : y = x := hs y (by rw [← List.nil_append s, ← h]; rfl)
      exact absurd (hy ▸ List.mem_cons_self) ha
    | cons z b =>
      obtain ⟨hy, hrest⟩ := List.cons.inj h
      obtain ⟨rfl, rfl⟩ := ih (List.not_mem_of_not_mem_cons ha) (List.not_mem_of_not_mem_cons hb) hrest
      exact ⟨hy ▸ rfl, rfl⟩

lemma separated_unique {a b : List β} {as bs : List (List β)} (ha : x ∉ a) (hb : x ∉ b) (has : ∀ p ∈ as, x ∉ p)
    (hbs : ∀ p ∈ bs, x ∉ p) (h : a ++ as.flatMap (x :: ·) = b ++ bs.flatMap (x :: ·)) : a = b ∧ as = bs := by
  have hhead : ∀ ps : List (List β), ∀ c ∈ (ps.flatMap (x :: ·)).head?, c = x := by
    rintro (_ | ⟨p, ps⟩) c hc
    · cases hc
    · exact (Option.some.inj hc).symm
  induction as generalizing a b bs with
  | nil =>
    obtain ⟨hab, hrest⟩ := append_unique ha hb (hhead []) (hhead bs) h
    cases bs with
    | nil => exact ⟨hab, rfl⟩
    | cons p bs => cases hrest
  | cons p as ih =>
    obtain ⟨hab, hrest⟩ := append_unique ha hb (hhead (p :: as)) (hhead bs) h
    cases bs with
    | nil => cases hrest
    | cons q bs =>
      rw [List.flatMap_cons, List.flatMap_cons, List.cons_append, List.cons_append, List.cons_eq_cons] at hrest
      obtain ⟨hp, has⟩ := List.forall_mem_cons.1 has
      obtain ⟨hq, hbs⟩ := List.forall_mem_cons.1 hbs
      obtain ⟨rfl, rfl⟩ := ih hp hq has hbs hrest.2
      exact ⟨hab, rfl⟩

end Separated

namespace Number

def Visible (s : String) : Prop := zeroChar ∉ s.toList

instance (s : String) : Decidable (Visible s) := inferInstanceAs (Decidable (¬ _))

lemma Visible.append {s t : String} (hs : Visible s) (ht : Visible t) : Visible (s ++ t) := by
  unfold Visible
  rw [String.toList_append, List.mem_append]
  exact fun h => h.elim hs ht

lemma visible_general (x : Float) : Visible (general x) := (numeral_general x).not_mem (by decide)

end Number

lemma Value.visible_key {v : Value} (h : ∀ s, v = .text s → Number.Visible s) : Number.Visible v.key := by
  cases v with
  | text s => exact Number.Visible.append (by decide) (h s rfl)
  | int i => exact Number.Visible.append (by decide) (Number.visible_general _)
  | double x => exact Number.Visible.append (by decide) (Number.visible_general _)

namespace Catalog

def Printable (b : Binding) : Prop := PlainName b.dim ∧ Number.Visible b.value.key

lemma toList_tupleKey (dim : String) (bound : List Binding) : (tupleKey dim bound).toList =
    dim.toList ++ (bound.map fun b => b.dim.toList ++ '=' :: b.value.key.toList).flatMap (zeroChar :: ·) := by
  simp [tupleKey, zeroChar, List.flatMap_map]

lemma toList_levelName (dim : String) (bound : List Binding) : (levelName dim bound).toList =
    dim.toList ++ (bound.map fun b => b.dim.toList).flatMap ('|' :: ·) := by
  simp [levelName, List.flatMap_map]

lemma tupleKey_injective {dim dim' : String} {bound bound' : List Binding} (hdim : PlainName dim)
    (hdim' : PlainName dim')
    (hbound : ∀ b ∈ bound, Printable b) (hbound' : ∀ b ∈ bound', Printable b)
    (h : tupleKey dim bound = tupleKey dim' bound') :
    dim = dim' ∧ bound.map (·.dim) = bound'.map (·.dim) ∧ bound.map (·.value.key) = bound'.map (·.value.key) := by
  have hname : ∀ {s : String}, PlainName s → zeroChar ∉ s.toList ∧ '=' ∉ s.toList := fun hs =>
    ⟨fun hm => (hs _ hm).1 rfl, fun hm => (hs _ hm).2.1 rfl⟩
  have hpart : ∀ {bs : List Binding}, (∀ b ∈ bs, Printable b) →
      ∀ p ∈ bs.map (fun b => b.dim.toList ++ '=' :: b.value.key.toList), zeroChar ∉ p := by
    intro bs hbs p hp hz
    obtain ⟨b, hb, rfl⟩ := List.mem_map.1 hp
    obtain ⟨hn, hk⟩ := hbs b hb
    rcases List.mem_append.1 hz with hz | hz
    · exact (hname hn).1 hz
    · exact hk ((List.mem_cons.1 hz).resolve_left (by decide))
  have hlists := congrArg String.toList h
  rw [toList_tupleKey, toList_tupleKey] at hlists
  obtain ⟨hd, hparts⟩ := separated_unique (hname hdim).1 (hname hdim').1 (hpart hbound) (hpart hbound') hlists
  refine ⟨String.toList_inj.1 hd, ?_⟩
  clear hlists h hd
  induction bound generalizing bound' with
  | nil =>
    cases bound' with
    | nil => exact ⟨rfl, rfl⟩
    | cons b bs => cases hparts
  | cons b bs ih =>
    cases bound' with
    | nil => cases hparts
    | cons b' bs' =>
      obtain ⟨hb, hbs⟩ := List.forall_mem_cons.1 hbound
      obtain ⟨hb', hbs'⟩ := List.forall_mem_cons.1 hbound'
      obtain ⟨hpart, hparts⟩ := List.cons_eq_cons.1 hparts
      obtain ⟨hdims, hkeys⟩ := ih hbs hbs' hparts
      have hhead : ∀ r : List Char, ∀ c ∈ ('=' :: r).head?, c = '=' := fun r c hc => (Option.some.inj hc).symm
      obtain ⟨hn, hk⟩ := append_unique (hname hb.1).2 (hname hb'.1).2 (hhead _) (hhead _) hpart
      rw [List.map_cons, List.map_cons, List.map_cons, List.map_cons, hdims, hkeys, String.toList_inj.1 hn,
        String.toList_inj.1 (List.cons_eq_cons.1 hk).2]
      exact ⟨rfl, rfl⟩

lemma levelName_injective {dim dim' : String} {bound bound' : List Binding} (hdim : PlainName dim)
    (hdim' : PlainName dim')
    (hbound : ∀ b ∈ bound, PlainName b.dim) (hbound' : ∀ b ∈ bound', PlainName b.dim)
    (h : levelName dim bound = levelName dim' bound') : dim = dim' ∧ bound.map (·.dim) = bound'.map (·.dim) := by
  have hname : ∀ {s : String}, PlainName s → '|' ∉ s.toList := fun hs hm => (hs _ hm).2.2 rfl
  have hpart : ∀ {bs : List Binding}, (∀ b ∈ bs, PlainName b.dim) → ∀ p ∈ bs.map (fun b => b.dim.toList), '|' ∉ p := by
    intro bs hbs p hp
    obtain ⟨b, hb, rfl⟩ := List.mem_map.1 hp
    exact hname (hbs b hb)
  have hlists := congrArg String.toList h
  rw [toList_levelName, toList_levelName] at hlists
  obtain ⟨hd, hparts⟩ := separated_unique (hname hdim) (hname hdim') (hpart hbound) (hpart hbound') hlists
  refine ⟨String.toList_inj.1 hd, ?_⟩
  have hmap := congrArg (List.map String.ofList) hparts
  simpa [List.map_map, Function.comp_def] using hmap

end Catalog

end LandUse

import LandUse.Equation.Library
import LandUse.Proofs.Catalog.Keys
import LandUse.Proofs.Expansion.Cycles
import Mathlib.Data.List.Induction
import Mathlib.Data.List.Nodup

namespace LandUse

namespace Dict

variable {β : Type}

def Sorted (d : Dict β) : Prop := d.names.Pairwise (· < ·)

lemma sorted_nil : Sorted ([] : Dict β) := .nil

variable {d : Dict β} {name : String} {a : β} {l : List (String × β)}

lemma mem_names_set {n : String} : n ∈ (d.set name a).names ↔ n = name ∨ n ∈ d.names := by
  rw [← not_iff_not, ← get?_eq_none, get?_set, not_or, ← get?_eq_none]
  split <;> simp_all

lemma Sorted.set (h : d.Sorted) (name : String) (a : β) : (d.set name a).Sorted := by
  induction d with
  | nil => exact List.pairwise_singleton _ _
  | cons x d ih =>
    obtain ⟨n, b⟩ := x
    obtain ⟨hn, hd⟩ := List.pairwise_cons.1 h
    rw [Dict.set]
    by_cases heq : name = n
    · subst heq
      rw [if_pos (beq_self_eq_true _)]
      exact h
    · rw [if_neg (by simpa using heq)]
      by_cases hlt : name < n
      · rw [if_pos hlt]
        refine List.pairwise_cons.2 ⟨fun m hm => ?_, h⟩
        rcases List.mem_cons.1 hm with rfl | hm
        · exact hlt
        · exact String.lt_trans hlt (hn m hm)
      · rw [if_neg hlt]
        have hgt : n < name := by
          by_contra hge
          exact heq (String.le_antisymm (String.not_lt.1 hge) (String.not_lt.1 hlt))
        refine List.pairwise_cons.2 ⟨fun m hm => ?_, ih hd⟩
        rcases mem_names_set.1 hm with rfl | hm
        · exact hgt
        · exact hn m hm

lemma sorted_ofList (entries : List (String × β)) : (ofList entries).Sorted := by
  have hfold : ∀ d : Dict β, d.Sorted → (entries.foldl (fun d x => d.set x.1 x.2) d).Sorted := by
    induction entries with
    | nil => exact fun _ h => h
    | cons x entries ih => exact fun d h => ih _ (h.set x.1 x.2)
  exact hfold [] sorted_nil

lemma Sorted.nodup (h : d.Sorted) : d.names.Nodup := by
  refine List.Pairwise.imp (fun {n m} hlt heq => ?_) h
  exact String.lt_irrefl m (heq ▸ hlt)

lemma mem_iff_get? (h : d.names.Nodup) : (name, a) ∈ d ↔ d.get? name = some a := by
  refine ⟨fun hmem => ?_, mem_of_get?⟩
  induction d with
  | nil => cases hmem
  | cons x d ih =>
    obtain ⟨hx, hd⟩ := List.nodup_cons.1 h
    rw [get?_cons]
    rcases List.mem_cons.1 hmem with rfl | hmem
    · rw [if_pos rfl]
    · have hne : name ≠ x.1 := fun heq => hx (List.mem_map.2 ⟨_, hmem, heq⟩)
      rw [if_neg hne, ih hd hmem]

lemma Sorted.ext {d' : Dict β} (h : d.Sorted) (h' : d'.Sorted) (hget : ∀ name, d.get? name = d'.get? name) :
    d = d' := by
  have hentries : ∀ {d : Dict β}, d.Sorted → d.Nodup := fun h =>
    List.Pairwise.of_map Prod.fst (fun _ _ hne heq => hne (congrArg Prod.fst heq)) h.nodup
  have hperm : d.Perm d' := by
    refine (List.perm_ext_iff_of_nodup (hentries h) (hentries h')).2 fun x => ?_
    rw [mem_iff_get? h.nodup, mem_iff_get? h'.nodup, hget]
  refine hperm.eq_of_pairwise (fun x y _ _ hxy hyx => ?_) (List.pairwise_map.1 h) (List.pairwise_map.1 h')
  exact absurd (String.lt_trans hxy hyx) (String.lt_irrefl _)

lemma get?_ofList (l : List (String × β)) (name : String) : (ofList l).get? name = Dict.get? l.reverse name := by
  induction l using List.reverseRecOn with
  | nil => rfl
  | append_singleton l x ih =>
    have hset : ofList (l ++ [x]) = (ofList l).set x.1 x.2 := by
      rw [ofList, List.foldl_append]
      rfl
    rw [hset, get?_set, ih, List.reverse_append, List.reverse_singleton, List.singleton_append, get?_cons]

lemma get?_ofList_of_not_mem (h : name ∉ l.map (·.1)) : (ofList l).get? name = none := by
  rw [get?_ofList, get?_eq_none, names, List.map_reverse, List.mem_reverse]
  exact h

lemma get?_ofList_eq_some (hnodup : (l.map (·.1)).Nodup) : (ofList l).get? name = some a ↔ (name, a) ∈ l := by
  have hreverse : (names l.reverse).Nodup := by
    rw [names, List.map_reverse, List.nodup_reverse]
    exact hnodup
  rw [get?_ofList, ← mem_iff_get? hreverse, List.mem_reverse]

lemma mem_ofList (hnodup : (l.map (·.1)).Nodup) {x : String × β} : x ∈ ofList l ↔ x ∈ l := by
  rw [mem_iff_get? (sorted_ofList l).nodup, get?_ofList_eq_some hnodup]

lemma length_set_of_not_mem (h : name ∉ d.names) (a : β) : (d.set name a).length = d.length + 1 := by
  induction d with
  | nil => rfl
  | cons x d ih =>
    obtain ⟨hx, hd⟩ := not_or.1 (List.mem_cons.not.1 h)
    rw [Dict.set, if_neg (by simpa using hx)]
    split
    · rfl
    · rw [List.length_cons, ih hd, List.length_cons]

end Dict

namespace Text

lemma bytes_injective {s t : String} (h : bytes s = bytes t) : s = t := by
  refine String.toByteArray_inj.1 ?_
  rw [← String.utf8Encode_toList, ← String.utf8Encode_toList]
  exact congrArg List.toByteArray h

lemma eq_zeroChar_of_mem_encode {c : Char} (h : 0 ∈ String.utf8EncodeChar c) : c = zeroChar := by
  -- Only a character of one byte may have a byte below 128.
  have hbyte : ∀ n, 0 < n → n < 256 → ¬ (0 : UInt8) = UInt8.ofNat n := by
    intro n hpos hlt heq
    have hn := congrArg UInt8.toNat heq
    rw [UInt8.toNat_ofNat_of_lt' hlt, UInt8.toNat_zero] at hn
    omega
  have hsmall : ¬ 0 < c.val.toNat := by
    intro hpos
    unfold String.utf8EncodeChar at h
    dsimp only at h
    split at h
    · exact hbyte _ hpos (by omega) (List.mem_singleton.1 h)
    · repeat' split at h
      all_goals simp (disch := omega) only [List.mem_cons, List.not_mem_nil, or_false, hbyte] at h
  exact Char.ext (UInt32.toNat_inj.1 (Nat.eq_zero_of_not_pos hsmall))

lemma zero_not_mem_bytes {s : String} (h : Number.Visible s) : 0 ∉ bytes s := by
  rw [bytes, List.mem_flatMap]
  rintro ⟨c, hc, hzero⟩
  exact h (eq_zeroChar_of_mem_encode hzero ▸ hc)

end Text

def sourceBytes (sources : Dict String) : Text.Bytes :=
  sources.flatMap fun (name, src) => Text.bytes name ++ [0] ++ Text.bytes src ++ [0]

structure Listing where
  entries : List (String × String)
  distinct : (entries.map Prod.fst).Nodup
  visible : ∀ x ∈ entries, Number.Visible x.1 ∧ Number.Visible x.2

namespace Listing

def table (m : Listing) : Dict String := .ofList m.entries

lemma mem_table {m : Listing} {x : String × String} : x ∈ m.table ↔ x ∈ m.entries := Dict.mem_ofList m.distinct

lemma table_eq_iff {m m' : Listing} : m.table = m'.table ↔ ∀ x, x ∈ m.entries ↔ x ∈ m'.entries := by
  constructor
  · intro h x
    rw [← mem_table, h, mem_table]
  · intro h
    have hsorted := Dict.sorted_ofList m.entries
    have hsorted' := Dict.sorted_ofList m'.entries
    refine hsorted.ext hsorted' fun name => Option.ext fun a => ?_
    exact (Dict.get?_ofList_eq_some m.distinct).trans ((h _).trans (Dict.get?_ofList_eq_some m'.distinct).symm)

end Listing

theorem sourceBytes_injective {d d' : Dict String} (hd : ∀ x ∈ d, Number.Visible x.1 ∧ Number.Visible x.2)
    (hd' : ∀ x ∈ d', Number.Visible x.1 ∧ Number.Visible x.2) (h : sourceBytes d = sourceBytes d') : d = d' := by
  have hcons : ∀ (x : String × String) (d : Dict String), sourceBytes (x :: d) =
      Text.bytes x.1 ++ 0 :: (Text.bytes x.2 ++ 0 :: sourceBytes d) := by
    intro x d
    simp [sourceBytes]
  have hpart : ∀ {s t : String} {r r' : Text.Bytes}, Number.Visible s → Number.Visible t →
      Text.bytes s ++ 0 :: r = Text.bytes t ++ 0 :: r' → s = t ∧ r = r' := by
    intro s t r r' hs ht heq
    obtain ⟨hst, hr⟩ := append_unique (Text.zero_not_mem_bytes hs) (Text.zero_not_mem_bytes ht) (by simp) (by simp) heq
    exact ⟨Text.bytes_injective hst, (List.cons.inj hr).2⟩
  induction d generalizing d' with
  | nil =>
    cases d' with
    | nil => rfl
    | cons y d' =>
      rw [hcons] at h
      exact absurd h.symm (by simp [sourceBytes])
  | cons x d ih =>
    cases d' with
    | nil =>
      rw [hcons] at h
      exact absurd h (by simp [sourceBytes])
    | cons y d' =>
      obtain ⟨hx, hd⟩ := List.forall_mem_cons.1 hd
      obtain ⟨hy, hd'⟩ := List.forall_mem_cons.1 hd'
      rw [hcons, hcons] at h
      obtain ⟨hname, h⟩ := hpart hx.1 hy.1 h
      obtain ⟨htext, h⟩ := hpart hx.2 hy.2 h
      rw [ih hd hd' h, Prod.ext hname htext]

end LandUse

import LandUse.Failure
import Mathlib.Data.List.Forall2
import Mathlib.Tactic.Common

namespace LandUse.Outcome

variable {ε α β : Type}

@[simp] lemma ok_bind (a : α) (f : α → Except ε β) : (Except.ok a >>= f) = f a := rfl

@[simp] lemma error_bind (e : ε) (f : α → Except ε β) : (Except.error e >>= f) = Except.error e := rfl

@[simp] lemma pure_eq_ok (a : α) : (pure a : Except ε α) = Except.ok a := rfl

variable {f : α → Except ε β} {b : β} {e : ε} {xs : List α} {ys : List β}

lemma bind_eq_ok {x : Except ε α} : (x >>= f) = .ok b ↔ ∃ a, x = .ok a ∧ f a = .ok b := by
  cases x <;> simp

lemma bind_eq_error {x : Except ε α} : (x >>= f) = .error e ↔ x = .error e ∨ ∃ a, x = .ok a ∧ f a = .error e := by
  cases x <;> simp

lemma orFault_eq_ok {x : Except Failure α} {a : α} : orFault x = .ok a ↔ x = .ok a := by
  cases x <;> simp [orFault]

lemma orFault_eq_error {x : Except Failure α} {e : Fault} :
    orFault x = .error e ↔ ∃ f, x = .error f ∧ e = .failure f := by
  cases x <;> simp [orFault, eq_comm]

lemma forall₂_of_mapM (h : xs.mapM f = .ok ys) : List.Forall₂ (fun x y => f x = .ok y) xs ys := by
  induction xs generalizing ys with
  | nil =>
    cases h
    exact .nil
  | cons x xs ih =>
    rw [List.mapM_cons, bind_eq_ok] at h
    obtain ⟨y, hy, h⟩ := h
    rw [bind_eq_ok] at h
    obtain ⟨ys, hys, h⟩ := h
    cases h
    exact .cons hy (ih hys)

lemma exists_of_mapM (h : xs.mapM f = .ok ys) {x : α} (hx : x ∈ xs) : ∃ y, f x = .ok y := by
  have hf := forall₂_of_mapM h
  clear h
  induction hf with
  | nil => cases hx
  | cons hy _ ih =>
    rcases List.mem_cons.mp hx with rfl | hx
    · exact ⟨_, hy⟩
    · exact ih hx

lemma exists_of_mem_mapM (h : xs.mapM f = .ok ys) {y : β} (hy : y ∈ ys) : ∃ x ∈ xs, f x = .ok y := by
  have hf := forall₂_of_mapM h
  clear h
  induction hf with
  | nil => cases hy
  | cons hx _ ih =>
    rcases List.mem_cons.1 hy with rfl | hy
    · exact ⟨_, List.mem_cons_self, hx⟩
    · obtain ⟨x, hx, hfx⟩ := ih hy
      exact ⟨x, List.mem_cons_of_mem _ hx, hfx⟩

lemma exists_of_mapM_error (h : xs.mapM f = .error e) : ∃ x ∈ xs, f x = .error e := by
  induction xs with
  | nil => cases h
  | cons x xs ih =>
    rw [List.mapM_cons, bind_eq_error] at h
    rcases h with h | ⟨y, -, h⟩
    · exact ⟨x, List.mem_cons_self, h⟩
    · rcases bind_eq_error.1 h with h | ⟨ys, -, h⟩
      · obtain ⟨x', hx', h⟩ := ih h
        exact ⟨x', List.mem_cons_of_mem _ hx', h⟩
      · cases h

lemma exists_of_any {x : Except ε α} {p : α → Bool} (h : x.toOption.any p = true) : ∃ a, x = .ok a ∧ p a = true := by
  cases x with
  | ok a => exact ⟨a, rfl, h⟩
  | error e => cases h

def refusal? : Except ε α → Option ε
  | .ok _ => none
  | .error e => some e

lemma refusal?_eq_some {x : Except ε α} : refusal? x = some e ↔ x = .error e := by
  cases x <;> simp [refusal?]

def failure? (x : Except Fault α) : Option Failure :=
  match x with
  | .error (.failure f) => some f
  | _ => none

lemma failure?_eq_some {x : Except Fault α} {f : Failure} : failure? x = some f ↔ x = .error (.failure f) := by
  rcases x with (f' | - | -) | a <;> simp [failure?]

lemma forM_cons (f : α → Except ε Unit) (x : α) (xs : List α) :
    (x :: xs).forM f = f x >>= fun _ => xs.forM f := rfl

lemma forM_eq_ok {f : α → Except ε Unit} : xs.forM f = .ok () ↔ ∀ x ∈ xs, f x = .ok () := by
  induction xs with
  | nil => exact ⟨fun _ => List.forall_mem_nil _, fun _ => rfl⟩
  | cons x xs ih =>
    rw [forM_cons, bind_eq_ok, List.forall_mem_cons, ← ih]
    exact ⟨fun ⟨_, hx, hxs⟩ => ⟨hx, hxs⟩, fun ⟨hx, hxs⟩ => ⟨_, hx, hxs⟩⟩

lemma exists_of_forM_error {f : α → Except ε Unit} (h : xs.forM f = .error e) : ∃ x ∈ xs, f x = .error e := by
  induction xs with
  | nil => cases h
  | cons x xs ih =>
    rw [forM_cons, bind_eq_error] at h
    rcases h with h | ⟨_, -, h⟩
    · exact ⟨x, List.mem_cons_self, h⟩
    · obtain ⟨x', hx', h⟩ := ih h
      exact ⟨x', List.mem_cons_of_mem _ hx', h⟩

lemma foldlM_invariant {P : β → Prop} {f : β → α → Except ε β} (hf : ∀ b a b', P b → f b a = .ok b' → P b') {b' : β}
    (hb : P b) (h : xs.foldlM f b = .ok b') : P b' := by
  induction xs generalizing b with
  | nil =>
    cases h
    exact hb
  | cons x xs ih =>
    rw [List.foldlM_cons, bind_eq_ok] at h
    obtain ⟨b₁, hx, h⟩ := h
    exact ih (hf b x b₁ hb hx) h

lemma exists_of_foldlM_error {f : β → α → Except ε β} (h : xs.foldlM f b = .error e) :
    ∃ b', ∃ a ∈ xs, f b' a = .error e := by
  induction xs generalizing b with
  | nil => cases h
  | cons x xs ih =>
    rw [List.foldlM_cons, bind_eq_error] at h
    rcases h with h | ⟨b₁, -, h⟩
    · exact ⟨b, x, List.mem_cons_self, h⟩
    · obtain ⟨b', a, ha, h⟩ := ih h
      exact ⟨b', a, List.mem_cons_of_mem _ ha, h⟩

section State

variable {σ : Type}

def result (x : ExceptT ε (StateM σ) α) (s : σ) : Except ε α × σ := x.run s

def proceed (r : Except ε α × σ) (f : α → σ → Except ε β × σ) : Except ε β × σ :=
  match r with
  | (.ok a, s) => f a s
  | (.error e, s) => (.error e, s)

@[simp] lemma proceed_ok (a : α) (s : σ) (f : α → σ → Except ε β × σ) : proceed (.ok a, s) f = f a s := rfl

@[simp] lemma proceed_error (e : ε) (s : σ) (f : α → σ → Except ε β × σ) :
    proceed (.error e, s) f = (.error e, s) := rfl

@[simp] lemma result_pure (a : α) (s : σ) : result (pure a : ExceptT ε (StateM σ) α) s = (.ok a, s) := rfl

@[simp] lemma result_bind (x : ExceptT ε (StateM σ) α) (f : α → ExceptT ε (StateM σ) β) (s : σ) :
    result (x >>= f) s = proceed (result x s) fun a s => result (f a) s := by
  change (let (r, s) := x.run s
    (match r with
      | .ok a => (f a).run
      | .error e => pure (.error e)) s) = proceed (x.run s) _
  rcases x.run s with ⟨_ | _, _⟩ <;> rfl

@[simp] lemma result_get (s : σ) : result (get : ExceptT ε (StateM σ) σ) s = (.ok s, s) := rfl

@[simp] lemma result_set (s s' : σ) : result (set s' : ExceptT ε (StateM σ) PUnit) s = (.ok ⟨⟩, s') := rfl

@[simp] lemma result_modify (f : σ → σ) (s : σ) :
    result (modify f : ExceptT ε (StateM σ) PUnit) s = (.ok ⟨⟩, f s) := rfl

@[simp] lemma result_ofExcept (x : Except ε α) (s : σ) :
    result (MonadExcept.ofExcept x : ExceptT ε (StateM σ) α) s = (x, s) := by
  cases x <;> rfl

@[simp] lemma result_liftM (x : Except ε α) (s : σ) : result (liftM x : ExceptT ε (StateM σ) α) s = (x, s) := rfl

variable {P : ε → Prop}

def Fails (P : ε → Prop) (x : ExceptT ε (StateM σ) α) : Prop := ∀ s e, (result x s).1 = .error e → P e

lemma Fails.bind {x : ExceptT ε (StateM σ) α} {f : α → ExceptT ε (StateM σ) β} (hx : Fails P x)
    (hf : ∀ s a, (result x s).1 = .ok a → Fails P (f a)) : Fails P (x >>= f) := by
  intro s e h
  rw [result_bind] at h
  rcases hr : result x s with ⟨e' | a, s'⟩
  · rw [hr] at h
    cases h
    exact hx s e (congrArg Prod.fst hr)
  · rw [hr] at h
    exact hf s a (congrArg Prod.fst hr) s' e h

lemma Fails.imp {Q : ε → Prop} {x : ExceptT ε (StateM σ) α} (hx : Fails P x) (h : ∀ e, P e → Q e) : Fails Q x :=
  fun s e he => h e (hx s e he)

lemma fails_pure (a : α) : Fails P (pure a : ExceptT ε (StateM σ) α) := fun _ _ h => nomatch h

lemma fails_modify (f : σ → σ) : Fails P (modify f : ExceptT ε (StateM σ) PUnit) := fun _ _ h => nomatch h

lemma fails_get : Fails P (get : ExceptT ε (StateM σ) σ) := fun _ _ h => nomatch h

lemma fails_throw {e : ε} (h : P e) : Fails P (throw e : ExceptT ε (StateM σ) α) := by
  rintro _ _ ⟨⟩
  exact h

lemma fails_liftM {x : Except ε α} (h : ∀ e, x = .error e → P e) : Fails P (liftM x : ExceptT ε (StateM σ) α) :=
  fun _ e he => h e he

lemma fails_forM {f : β → ExceptT ε (StateM σ) PUnit} {bs : List β} (hf : ∀ b ∈ bs, Fails P (f b)) :
    Fails P (bs.forM f) := by
  induction bs with
  | nil => exact fails_pure _
  | cons b bs ih =>
    obtain ⟨hb, hbs⟩ := List.forall_mem_cons.mp hf
    exact hb.bind fun _ _ _ => ih hbs

lemma fails_mapM {f : β → ExceptT ε (StateM σ) α} {bs : List β} (hf : ∀ b ∈ bs, Fails P (f b)) :
    Fails P (bs.mapM f) := by
  induction bs with
  | nil => exact fails_pure _
  | cons b bs ih =>
    obtain ⟨hb, hbs⟩ := List.forall_mem_cons.mp hf
    rw [List.mapM_cons]
    exact hb.bind fun _ _ _ => (ih hbs).bind fun _ _ _ => fails_pure _

end State

end LandUse.Outcome

import LandUse.Expansion.Program
import LandUse.Proofs.Outcome

namespace LandUse

open Outcome

namespace Program

inductive Refused (p : Program) (frame : Frame) (columns : List String) (name : String) (isVariable : Bool)
    (subs : List Subscript) : Fault → Prop
  | unbound {span : Span} {dim : String} : .dim span dim ∈ subs → frame.binding? dim = none →
      Refused p frame columns name isVariable subs
        (.failure (.dimension frame.equation (name ++ "[" ++ dim ++ "]: dimension " ++ dim ++ " is not bound")))
  | noInstance {values : List (Cell × Bool)} : isVariable = true → subs.mapM (subscript frame name) = .ok values →
      (∀ k, p.offsets.offset name (values.map (·.1)) ≠ .ok k) → Refused p frame columns name isVariable subs
        (.failure (.lookup "" (-1) ("no decision variable " ++
          VariableInstance.nameOf name (p.offsets.dimensionsOf name) (values.map (·.1)))))
  | unknown : Refused p frame columns name isVariable subs
      (.failure (.lookup frame.equation (-1) ("unknown parameter " ++ name)))
  | empty {q : Parameter} : p.settings.parameters.get? name = some q → q.literal = none → q.columns = [] →
      Refused p frame columns name isVariable subs .violation
  | noOption : Refused p frame columns name isVariable subs
      (.failure (.dimension frame.equation ("parameter " ++ name ++ " needs an option")))
  | noColumn (option : Int) : Refused p frame columns name isVariable subs
      (.failure (.lookup frame.equation (-1) ("parameter " ++ name ++ " has no column for option " ++ toString option)))
  | noRow : Refused p frame columns name isVariable subs
      (.failure (.lookup frame.equation (-1) ("no row to read parameter " ++ name ++ " from")))
  | unread {q : Parameter} {column : String} {row : Row} : isVariable = false →
      p.settings.parameters.get? name = some q → column ∈ q.columns → row ∈ frame.rows →
      (columns.findIdx? (· == column)).bind (row[·]?) = none → Refused p frame columns name isVariable subs
        (.failure (.lookup frame.equation (-1) ("column " ++ column ++ " of parameter " ++ name ++
          " has not been read")))
  | noNumber (message : String) : Refused p frame columns name isVariable subs
      (.failure (.lookup frame.equation (-1) ("parameter " ++ name ++ ": " ++ message)))
  | noValue (option : Nat) : Refused p frame columns name isVariable subs
      (.failure (.lookup frame.equation (-1) ("indicator " ++ name ++ " has no value for option " ++ toString option)))

variable {p : Program} {frame : Frame} {columns : List String} {name column : String} {isVariable : Bool}
variable {subs : List Subscript} {q : Parameter} {values : List (Cell × Bool)} {f : Failure} {e : Fault}

lemma mem_of_parameterColumn {option : Nat} (hq : q.columns ≠ [])
    (h : parameterColumn frame q name values = .ok (column, option)) : column ∈ q.columns := by
  unfold parameterColumn at h
  split at h
  · rw [bind_eq_ok] at h
    obtain ⟨n, -, h⟩ := h
    split at h
    · rename_i hget
      cases h
      exact List.mem_of_getElem? hget
    · cases h
  · cases h
    cases hc : q.columns with
    | nil => exact absurd hc hq
    | cons c cs => exact List.mem_cons_self

lemma refused_subscripts (h : subs.mapM (subscript frame name) = .error f) :
    Refused p frame columns name isVariable subs (.failure f) := by
  obtain ⟨sub, hsub, h⟩ := exists_of_mapM_error h
  cases sub with
  | dim span dim =>
    dsimp only [subscript] at h
    split at h <;> cases h
    exact .unbound hsub ‹_›
  | option | index => cases h

lemma refused_parameterColumn (h : parameterColumn frame q name values = .error f) :
    Refused p frame columns name isVariable subs (.failure f) := by
  unfold parameterColumn at h
  split at h
  · rcases bind_eq_error.1 h with h | ⟨n, -, h⟩
    · unfold optionOf at h
      split at h
      · cases h
      · split at h <;> cases h
        exact .noOption
    · split at h <;> cases h
      exact .noColumn n
  · cases h

lemma refused_readParameter (hvariable : isVariable = false) (hq : p.settings.parameters.get? name = some q)
    (hcolumn : column ∈ q.columns) (h : readParameter frame columns name column = .error f) :
    Refused p frame columns name isVariable subs (.failure f) := by
  unfold readParameter at h
  split at h
  · cases h
    exact .noRow
  · rename_i row rows hrows
    split at h <;> cases h
    exact .unread hvariable hq hcolumn (hrows ▸ List.mem_cons_self) ‹_›

lemma refused_bind {β γ : Type} {x : Except Failure β} {g : β → Except Fault γ}
    (hx : ∀ f, x = .error f → Refused p frame columns name isVariable subs (.failure f))
    (hg : ∀ b, x = .ok b → g b = .error e → Refused p frame columns name isVariable subs e)
    (h : (orFault x >>= g) = .error e) : Refused p frame columns name isVariable subs e := by
  cases x with
  | ok b => exact hg b rfl h
  | error f =>
    cases h
    exact hx f rfl

variable {α : Type} [Scalar α]

lemma refused_parameter (hvariable : isVariable = false)
    (h : (parameter p.settings frame columns name subs : Except Fault α) = .error e) :
    Refused p frame columns name isVariable subs e := by
  unfold parameter at h
  split at h
  · cases h
    exact .unknown
  · rename_i q hq
    dsimp only at h
    split at h
    · cases h
    · rename_i hliteral
      split at h
      · rename_i hempty
        cases h
        exact .empty hq hliteral (List.isEmpty_iff.1 hempty)
      · rename_i hempty
        refine refused_bind (fun _ => refused_subscripts) (fun values _ h => ?_) h
        refine refused_bind (fun _ => refused_parameterColumn) (fun ⟨column, option⟩ hcolumn h => ?_) h
        have hmem : column ∈ q.columns := mem_of_parameterColumn (by simpa using hempty) hcolumn
        refine refused_bind (fun _ => refused_readParameter hvariable hq hmem) (fun v _ h => ?_) h
        dsimp only at h
        split at h
        · split at h <;> cases h
          exact .noNumber _
        · split at h <;> cases h
          exact .noValue _

theorem refused_reference (h : (p.reference frame columns name isVariable subs : Except Fault (Instr α)) = .error e) :
    Refused p frame columns name isVariable subs e := by
  unfold reference at h
  split at h
  case isTrue hvariable =>
    refine refused_bind (fun _ => refused_subscripts) (fun values hvalues h => ?_) h
    refine refused_bind (fun f hf => ?_) (fun k _ h => by cases h) h
    have hnone : ∀ k, p.offsets.offset name (values.map (·.1)) ≠ .ok k := by
      rw [hf]
      exact fun _ => nofun
    unfold Offsets.offset at hf
    split at hf <;> cases hf
    exact .noInstance hvariable hvalues hnone
  case isFalse hvariable =>
    rcases bind_eq_error.1 h with h | ⟨x, -, h⟩
    · exact refused_parameter (Bool.eq_false_iff.2 hvariable) h
    · cases h

end Program

end LandUse

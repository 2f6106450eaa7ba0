import LandUse.Proofs.Equation.Sources

/-! A library answers as if nothing were kept, and between two changes no equation is converted twice. -/

namespace LandUse

open Outcome

namespace Library

inductive Call where
  | reload (m : Listing)
  | equation (name : String)
  | compile (name : String)
  | compileAll

namespace Call

def apply (l : Library) : Call → Library
  | .reload m => (l.reload m.table).2
  | .equation name => (l.equation name).2
  | .compile name => (l.compile name).2
  | .compileAll => l.compileAll.2

def next (m : Listing) : Call → Listing
  | .reload m' => m'
  | _ => m

def changes (l : Library) : Call → Bool
  | .reload m => (l.reload m.table).1
  | _ => false

def Answers (l : Library) (sym : Symbols) (m : Listing) : Call → Prop
  | .reload m' => (l.reload m'.table).1 = true ↔ ¬ ∀ x, x ∈ m'.entries ↔ x ∈ m.entries
  | .equation name => (l.equation name).1 = parseNamed sym m.table name
  | .compile name => (l.compile name).1.map Conversion.code = compileNamed sym m.table name ∧
      ∀ c, (l.compile name).1 = .ok c → (l.compile name).2.codes.get? name = some c
  | .compileAll => l.compileAll.1 = forM m.table.names fun name => discard (compileNamed sym m.table name)

end Call

def after (l : Library) (calls : List Call) : Library := calls.foldl Call.apply l

def latest (first : Listing) (calls : List Call) : Listing := calls.foldl Call.next first

def given (first : Listing) (calls : List Call) : List Listing :=
  first :: calls.filterMap fun
    | .reload m => some m
    | _ => none

def Keeps : Library → List Call → Prop
  | _, [] => True
  | l, c :: calls => c.changes l = false ∧ Keeps (c.apply l) calls

def Distinguished (tables : List Listing) : Prop :=
  ∀ a ∈ tables, ∀ b ∈ tables, Hash.Blake3.hash (sourceBytes a.table) = Hash.Blake3.hash (sourceBytes b.table) →
    sourceBytes a.table = sourceBytes b.table

structure Reflects (l : Library) (sym : Symbols) (d : Dict String) : Prop where
  symbols : l.symbols = sym
  sources : l.sources = d
  fingerprint : l.fingerprint? = some (fingerprint d)
  trees : ∀ {name e}, l.trees.get? name = some e → parseNamed sym d name = .ok e
  codes : ∀ {name c}, l.codes.get? name = some c → compileNamed sym d name = .ok c.code
  sorted : l.codes.Sorted

/-- Every conversion has put a code where there was none, and no code is replaced. -/
structure Grows (l l' : Library) : Prop where
  count : l'.conversions + l.codes.length = l.conversions + l'.codes.length
  keeps : ∀ {name c}, l.codes.get? name = some c → l'.codes.get? name = some c

namespace Grows

lemma refl (l : Library) : Grows l l := ⟨rfl, id⟩

lemma trans {l l' l'' : Library} (h : Grows l l') (h' : Grows l' l'') : Grows l l'' := by
  refine ⟨?_, fun hc => h'.keeps (h.keeps hc)⟩
  have := h.count
  have := h'.count
  omega

end Grows

section Steps

variable {l l' : Library} {sym : Symbols} {d : Dict String} {name : String}

lemma reflects_equation (h : l.Reflects sym d) {r : Except Failure Expr} (hr : l.equation name = (r, l')) :
    r = parseNamed sym d name ∧ l'.Reflects sym d ∧ l'.codes = l.codes ∧ l'.conversions = l.conversions := by
  unfold equation at hr
  rw [h.symbols, h.sources] at hr
  cases hget : l.trees.get? name with
  | some e =>
    simp only [hget] at hr
    cases hr
    exact ⟨(h.trees hget).symm, h, rfl, rfl⟩
  | none =>
    cases hparse : parseNamed sym d name with
    | error e =>
      simp only [hget, hparse] at hr
      cases hr
      exact ⟨rfl, h, rfl, rfl⟩
    | ok e =>
      simp only [hget, hparse] at hr
      cases hr
      refine ⟨rfl, ⟨rfl, rfl, h.fingerprint, fun {n e'} hn => ?_, h.codes, h.sorted⟩, rfl, rfl⟩
      rw [Dict.get?_set] at hn
      by_cases hname : n = name
      · rw [if_pos hname] at hn
        cases hn
        rw [hname, hparse]
      · rw [if_neg hname] at hn
        exact h.trees hn

lemma reflects_compile (h : l.Reflects sym d) {r : Except Failure Conversion} (hr : l.compile name = (r, l')) :
    r.map Conversion.code = compileNamed sym d name ∧ l'.Reflects sym d ∧ l.Grows l' ∧
      ∀ c, r = .ok c → l'.codes.get? name = some c := by
  unfold compile at hr
  cases hget : l.codes.get? name with
  | some c =>
    simp only [hget] at hr
    cases hr
    exact ⟨(h.codes hget).symm, h, .refl l, fun c hc => Except.ok.inj hc ▸ hget⟩
  | none =>
    rcases heq : l.equation name with ⟨r₁, l₁⟩
    obtain ⟨hr₁, h₁, hcodes, hcount⟩ := reflects_equation h heq
    have hcode : compileNamed sym d name = r₁.map (Code.ofExpr name) := by
      rw [compileNamed, ← hr₁]
      cases r₁ <;> rfl
    rw [hcode]
    simp only [hget, heq] at hr
    cases r₁ with
    | error e =>
      cases hr
      exact ⟨rfl, h₁, ⟨by rw [hcodes, hcount], fun hc => hcodes ▸ hc⟩, nofun⟩
    | ok e =>
      cases hr
      refine ⟨rfl, ⟨h₁.symbols, h₁.sources, h₁.fingerprint, h₁.trees, fun {n c} hn => ?_, h₁.sorted.set _ _⟩,
        ⟨?_, fun {n c} hn => ?_⟩, fun c hc => ?_⟩
      · rw [Dict.get?_set] at hn
        by_cases hname : n = name
        · rw [if_pos hname] at hn
          cases hn
          rw [hname, hcode]
          rfl
        · rw [if_neg hname] at hn
          exact h₁.codes hn
      · have hlength := Dict.length_set_of_not_mem (Dict.get?_eq_none.1 hget) ⟨l₁.conversions, Code.ofExpr name e⟩
        simp only [hcodes, hcount] at hlength ⊢
        omega
      · have hname : n ≠ name := by
          rintro rfl
          rw [hget] at hn
          cases hn
        rw [Dict.get?_set, if_neg hname, hcodes, hn]
      · cases hc
        rw [Dict.get?_set, if_pos rfl]

lemma reflects_compileEach (h : l.Reflects sym d) {names : List String} {r : Except Failure Unit}
    (hr : l.compileEach names = (r, l')) :
    r = forM names (fun name => discard (compileNamed sym d name)) ∧ l'.Reflects sym d ∧ l.Grows l' := by
  induction names generalizing l with
  | nil =>
    cases hr
    exact ⟨rfl, h, .refl _⟩
  | cons name names ih =>
    rcases hcompile : l.compile name with ⟨r₁, l₁⟩
    obtain ⟨hr₁, h₁, hgrows, -⟩ := reflects_compile h hcompile
    rw [List.forM_cons, ← hr₁]
    simp only [compileEach, hcompile] at hr
    cases r₁ with
    | error e =>
      cases hr
      exact ⟨rfl, h₁, hgrows⟩
    | ok c =>
      obtain ⟨hr, h', hgrows'⟩ := ih h₁ hr
      exact ⟨hr, h', hgrows.trans hgrows'⟩

lemma reflects_reload (h : l.Reflects sym d) {d' : Dict String} {changed : Bool}
    (hinj : fingerprint d' = fingerprint d → d' = d) (hr : l.reload d' = (changed, l')) :
    (changed = true ↔ d' ≠ d) ∧ l'.Reflects sym d' ∧ (changed = false → l' = l) := by
  unfold reload at hr
  rw [h.fingerprint] at hr
  by_cases hd : d' = d
  · subst hd
    simp only [beq_self_eq_true, if_true] at hr
    cases hr
    exact ⟨by simp, h, fun _ => rfl⟩
  · have hne : ¬ (some (LandUse.fingerprint d) == some (LandUse.fingerprint d')) = true := by
      simpa using fun heq => hd (hinj heq.symm)
    simp only [hne] at hr
    cases hr
    exact ⟨by simp [hd], ⟨h.symbols, rfl, rfl, nofun, nofun, Dict.sorted_nil⟩, nofun⟩

lemma reflects_make (sym : Symbols) (d : Dict String) : (make sym d).Reflects sym d :=
  ⟨rfl, rfl, rfl, nofun, nofun, Dict.sorted_nil⟩

lemma table_eq_of_fingerprint {tables : List Listing} (h : Distinguished tables) {m m' : Listing} (hm : m ∈ tables)
    (hm' : m' ∈ tables) (heq : fingerprint m.table = fingerprint m'.table) : m.table = m'.table :=
  sourceBytes_injective (fun x hx => m.visible x (Listing.mem_table.1 hx))
    (fun x hx => m'.visible x (Listing.mem_table.1 hx)) (h m hm m' hm' heq)

theorem reflects_call {m : Listing} (h : l.Reflects sym m.table) {c : Call} (hc : Distinguished [m, c.next m]) :
    c.Answers l sym m ∧ (c.apply l).Reflects sym (c.next m).table ∧ (c.changes l = false → l.Grows (c.apply l)) := by
  cases c with
  | reload m' =>
    have hinj : fingerprint m'.table = fingerprint m.table → m'.table = m.table :=
      table_eq_of_fingerprint hc (by simp [Call.next]) (by simp)
    rcases hcall : l.reload m'.table with ⟨changed, l'⟩
    obtain ⟨hchanged, hreflects, hsame⟩ := reflects_reload h hinj hcall
    simp only [Call.Answers, Call.apply, Call.next, Call.changes, hcall]
    exact ⟨hchanged.trans (not_congr Listing.table_eq_iff), hreflects, fun hkeep => hsame hkeep ▸ .refl l⟩
  | equation name =>
    rcases hcall : l.equation name with ⟨r, l'⟩
    obtain ⟨hanswer, hreflects, hcodes, hcount⟩ := reflects_equation h hcall
    simp only [Call.Answers, Call.apply, Call.next, hcall]
    exact ⟨hanswer, hreflects, fun _ => ⟨by rw [hcodes, hcount], fun hc => hcodes ▸ hc⟩⟩
  | compile name =>
    rcases hcall : l.compile name with ⟨r, l'⟩
    obtain ⟨hanswer, hreflects, hgrows, hfound⟩ := reflects_compile h hcall
    simp only [Call.Answers, Call.apply, Call.next, hcall]
    exact ⟨⟨hanswer, hfound⟩, hreflects, fun _ => hgrows⟩
  | compileAll =>
    rcases hcall : l.compileAll with ⟨r, l'⟩
    rw [compileAll, h.sources] at hcall
    obtain ⟨hanswer, hreflects, hgrows⟩ := reflects_compileEach h hcall
    simp only [Call.Answers, Call.apply, Call.next, compileAll, h.sources, hcall]
    exact ⟨hanswer, hreflects, fun _ => hgrows⟩

end Steps

lemma given_append_subset (m : Listing) (before rest : List Call) : given m before ⊆ given m (before ++ rest) := by
  simp only [given, List.filterMap_append]
  exact List.cons_subset_cons m (List.subset_append_left _ _)

lemma given_next_subset (m : Listing) (c : Call) (calls : List Call) :
    given (c.next m) calls ⊆ given m (c :: calls) := by
  cases c <;> simp [given, Call.next]

lemma Distinguished.subset {tables tables' : List Listing} (h : Distinguished tables') (hsub : tables ⊆ tables') :
    Distinguished tables := fun a ha b hb => h a (hsub ha) b (hsub hb)

lemma distinguished_next {m : Listing} {c : Call} {calls : List Call} (h : Distinguished (given m (c :: calls))) :
    Distinguished [m, c.next m] ∧ Distinguished (given (c.next m) calls) := by
  have hnext := given_next_subset m c calls
  refine ⟨h.subset ?_, h.subset hnext⟩
  exact List.cons_subset.2 ⟨List.mem_cons_self, List.cons_subset.2 ⟨hnext List.mem_cons_self, List.nil_subset _⟩⟩

section Runs

variable {l : Library} {sym : Symbols} {m : Listing}

lemma reflects_after (h : l.Reflects sym m.table) {calls : List Call} (hd : Distinguished (given m calls)) :
    (l.after calls).Reflects sym (latest m calls).table := by
  induction calls generalizing l m with
  | nil => exact h
  | cons c calls ih =>
    obtain ⟨hc, hcalls⟩ := distinguished_next hd
    exact ih (reflects_call h hc).2.1 hcalls

lemma grows_after (h : l.Reflects sym m.table) {calls : List Call} (hd : Distinguished (given m calls))
    (hkeep : l.Keeps calls) : l.Grows (l.after calls) := by
  induction calls generalizing l m with
  | nil => exact .refl l
  | cons c calls ih =>
    obtain ⟨hc, hcalls⟩ := distinguished_next hd
    obtain ⟨-, hreflects, hgrows⟩ := reflects_call h hc
    exact (hgrows hkeep.1).trans (ih hreflects hcalls hkeep.2)

lemma given_latest_subset (m : Listing) (before rest : List Call) :
    given (latest m before) rest ⊆ given m (before ++ rest) := by
  induction before generalizing m with
  | nil => exact List.Subset.refl _
  | cons c before ih => exact List.Subset.trans (ih (c.next m)) (given_next_subset m c (before ++ rest))

end Runs

/-- Whatever has been called before, a call answers what the table given last says. -/
theorem answers_given_sources (sym : Symbols) (first : Listing) (calls : List Call)
    (hdistinct : Distinguished (given first calls)) :
    (reload { symbols := sym } first.table).1 = true ∧
    (∀ before c rest, calls = before ++ c :: rest →
      c.Answers ((make sym first.table).after before) sym (latest first before)) ∧
    ∀ before during rest, calls = before ++ during ++ rest → ((make sym first.table).after before).Keeps during →
      ((make sym first.table).after before).Grows ((make sym first.table).after (before ++ during)) ∧
      ((make sym first.table).after (before ++ during)).codes.names.Nodup := by
  have hstart := reflects_make sym first.table
  refine ⟨rfl, ?_, ?_⟩
  · rintro before c rest rfl
    have hbefore : Distinguished (given first before) := hdistinct.subset (given_append_subset first before _)
    have hrest := hdistinct.subset (given_latest_subset first before (c :: rest))
    exact (reflects_call (reflects_after hstart hbefore) (distinguished_next hrest).1).1
  · rintro before during rest rfl hkeep
    have hboth : Distinguished (given first (before ++ during)) := hdistinct.subset (given_append_subset first _ _)
    have hbefore : Distinguished (given first before) := hboth.subset (given_append_subset first before during)
    have hduring := hboth.subset (given_latest_subset first before during)
    refine ⟨?_, (reflects_after hstart hboth).sorted.nodup⟩
    rw [show (make sym first.table).after (before ++ during) = ((make sym first.table).after before).after during from
      List.foldl_append]
    exact grows_after (reflects_after hstart hbefore) hduring hkeep

section Offers

def offers : Listing := ⟨[("cost", "1 + 2"), ("gain", "2 *")], by decide, by decide +kernel⟩

def offersReversed : Listing := ⟨[("gain", "2 *"), ("cost", "1 + 2")], by decide, by decide +kernel⟩

def revisedOffers : Listing := ⟨[("cost", "1 - 2"), ("gain", "2 *")], by decide, by decide +kernel⟩

def offerSymbols : Symbols := ⟨offers.table.contains, fun _ => false, fun _ => none, fun _ => false, fun _ => none⟩

def offerCalls : List Call := [.compile "cost", .compileAll, .reload offersReversed, .compile "cost",
    .reload revisedOffers]

theorem reversed_offers_kept : Distinguished (given offers offerCalls) ∧
    (((make offerSymbols offers.table).after (offerCalls.take 2)).reload offersReversed.table).1 = false ∧
    (((make offerSymbols offers.table).after (offerCalls.take 4)).reload revisedOffers.table).1 = true ∧
    ((make offerSymbols offers.table).after (offerCalls.take 1)).Grows
      ((make offerSymbols offers.table).after (offerCalls.take 4)) := by
  have hsame : sourceBytes offersReversed.table = sourceBytes offers.table := by decide +kernel
  have hhash : Hash.Blake3.hash (sourceBytes offers.table) ≠ Hash.Blake3.hash (sourceBytes revisedOffers.table) := by
    decide +kernel
  have hdistinct : Distinguished (given offers offerCalls) := by
    simp only [Distinguished, given, offerCalls, List.filterMap_cons, List.filterMap_nil, List.forall_mem_cons, hsame]
    simp [hhash, hhash.symm]
  obtain ⟨-, hanswers, hgrows⟩ := answers_given_sources offerSymbols offers offerCalls hdistinct
  have hreload := hanswers (offerCalls.take 2) (.reload offersReversed) _ rfl
  have hrevise := hanswers (offerCalls.take 4) (.reload revisedOffers) [] rfl
  have hkept :
      (((make offerSymbols offers.table).after (offerCalls.take 2)).reload offersReversed.table).1 = false := by
    refine Bool.eq_false_iff.2 fun h => hreload.1 h fun x => ?_
    simp [offersReversed, offers, latest, Call.next, offerCalls, or_comm]
  refine ⟨hdistinct, hkept, hrevise.2 fun h => ?_, ?_⟩
  · exact absurd ((h ("cost", "1 - 2")).1 (by decide)) (by decide)
  · exact (hgrows (offerCalls.take 1) [.compileAll, .reload offersReversed, .compile "cost"] [.reload revisedOffers] rfl
      ⟨rfl, hkept, rfl, trivial⟩).1

end Offers

end Library

end LandUse

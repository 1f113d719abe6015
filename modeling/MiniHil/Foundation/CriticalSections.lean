import Mathlib.Data.List.Chain
import Mathlib.Logic.Function.Basic
import MiniHil.Foundation.Runs

/-! # Critical sections

Threads that share an object behind one mutex. A call is served in single accesses to the object between the
acquisition of the mutex and its release, while the other threads and the clock go on. The object is nevertheless as
after the calls one by one in the order of the releases, each of them at one instant.
-/
namespace MiniHil
open Runs

inductive Program (τ σ α : Type*)
  | ret (result : α)
  | read (next : σ → Program τ σ α)
  | write (update : σ → σ) (next : Program τ σ α)
  | sample (next : τ → Program τ σ α)

namespace Program
variable {τ σ α : Type*}

def runAt (now : τ) : Program τ σ α → σ → α × σ
  | .ret result, s => (result,s)
  | .read next, s => (next s).runAt now s
  | .write update next, s => next.runAt now (update s)
  | .sample next, s => (next now).runAt now s

@[simp] theorem runAt_ret (now : τ) (result : α) (s : σ) : (ret result : Program τ σ α).runAt now s = (result,s) := rfl

@[simp] theorem runAt_read (now : τ) (next : σ → Program τ σ α) (s : σ) :
    (read next).runAt now s = (next s).runAt now s := rfl

@[simp] theorem runAt_write (now : τ) (update : σ → σ) (next : Program τ σ α) (s : σ) :
    (write update next).runAt now s = next.runAt now (update s) := rfl

@[simp] theorem runAt_sample (now : τ) (next : τ → Program τ σ α) (s : σ) :
    (sample next).runAt now s = (next now).runAt now s := rfl

def Timeless : Program τ σ α → Prop
  | .ret _ => True
  | .read next => ∀ s, (next s).Timeless
  | .write _ next => next.Timeless
  | .sample _ => False

def OneInstant : Program τ σ α → Prop
  | .ret _ => True
  | .read next => ∀ s, (next s).OneInstant
  | .write _ next => next.OneInstant
  | .sample next => ∀ now, (next now).Timeless

theorem Timeless.oneInstant {p : Program τ σ α} (h : p.Timeless) : p.OneInstant := by
  induction p with
  | ret => trivial
  | read next ih => exact fun s => ih s (h s)
  | write _ _ ih => exact ih h
  | sample => exact h.elim

theorem OneInstant.ite {c : Prop} [Decidable c] {p q : Program τ σ α} (hp : p.OneInstant) (hq : q.OneInstant) :
    (if c then p else q).OneInstant := by
  split_ifs
  · exact hp
  · exact hq

end Program

structure Guarded (τ σ ω α : Type*) where
  body : ω → Program τ σ α
  oneInstant : ∀ op, (body op).OneInstant

structure Moment (τ : Type*) where
  served : ℕ
  clock : τ

structure Served (τ ω α : Type*) where
  op : ω
  since : Moment τ
  instant : τ
  result : α

/-- Where a thread stands. `instant` is the time at which the section was entered until the clock is read in it. -/
inductive ThreadPhase (τ σ ω α : Type*)
  | idle
  | waiting (op : ω) (since : Moment τ)
  | inside (op : ω) (since : Moment τ) (instant : τ) (rest : Program τ σ α)
  | returning (call : Served τ ω α)

/-- The calls that were served are in the order of the releases, those that have returned in that of their returns. -/
structure Threads (ι τ σ ω α : Type*) where
  shared : σ
  clock : τ
  owner : Option ι := none
  phases : ι → ThreadPhase τ σ ω α := fun _ => .idle
  served : List (Served τ ω α) := []
  returned : List (Served τ ω α × Moment τ) := []

namespace Guarded
variable {τ σ ω α : Type*} (obj : Guarded τ σ ω α)

/-- One call as a whole. -/
def call (e : Served τ ω α) (s : σ) : α × σ := (obj.body e.op).runAt e.instant s

def Serial : σ → List (Served τ ω α) → σ → Prop
  | s, [], t => t = s
  | s, e :: es, t => (obj.call e s).1 = e.result ∧ Serial (obj.call e s).2 es t

def Continues (op : ω) (instant : τ) (rest : Program τ σ α) (before shared : σ) : Prop :=
  (rest.OneInstant ∧ ∀ now, rest.runAt now shared = (obj.body op).runAt now before) ∨
    (rest.Timeless ∧ rest.runAt instant shared = (obj.body op).runAt instant before)

variable {obj} {s t : σ} {es : List (Served τ ω α)}

theorem Serial.concat {e : Served τ ω α} (h : Serial obj s es t) (he : (obj.call e t).1 = e.result) :
    Serial obj s (es ++ [e]) (obj.call e t).2 := by
  induction es generalizing s with
  | nil =>
    obtain rfl := h
    exact ⟨he,rfl⟩
  | cons e' es ih => exact ⟨h.1,ih h.2⟩

theorem Continues.write {op : ω} {instant : τ} {update : σ → σ} {next : Program τ σ α} {before shared : σ}
    (h : obj.Continues op instant (.write update next) before shared) :
    obj.Continues op instant next before (update shared) := h

theorem Continues.read {op : ω} {instant : τ} {next : σ → Program τ σ α} {before shared : σ}
    (h : obj.Continues op instant (.read next) before shared) : obj.Continues op instant (next shared) before shared :=
  h.imp (fun h => ⟨h.1 shared,h.2⟩) (fun h => ⟨h.1 shared,h.2⟩)

theorem Continues.sample {op : ω} {instant : τ} {next : τ → Program τ σ α} {before shared : σ}
    (h : obj.Continues op instant (.sample next) before shared) (now : τ) : obj.Continues op now (next now) before shared := by
  rcases h with ⟨hone,hrun⟩ | ⟨htimeless,_⟩
  · exact .inr ⟨hone now,hrun now⟩
  · exact htimeless.elim

theorem Continues.ret {op : ω} {instant : τ} {result : α} {before shared : σ}
    (h : obj.Continues op instant (.ret result) before shared) : (result,shared) = (obj.body op).runAt instant before :=
  h.elim (fun h => h.2 instant) And.right

end Guarded

namespace Threads
variable {ι τ σ ω α : Type*} {obj : Guarded τ σ ω α}

inductive Label (ι τ ω : Type*)
  | call (i : ι) (op : ω)
  | acquire (i : ι)
  | access (i : ι)
  | release (i : ι)
  | leave (i : ι)
  | elapse (now : τ)

section Steps
variable [DecidableEq ι]

def now (s : Threads ι τ σ ω α) : Moment τ := ⟨s.served.length,s.clock⟩

def setPhase (i : ι) (p : ThreadPhase τ σ ω α) (s : Threads ι τ σ ω α) : Threads ι τ σ ω α :=
  { s with phases := Function.update s.phases i p }

variable [Preorder τ]

inductive Step (obj : Guarded τ σ ω α) (s : Threads ι τ σ ω α) : Label ι τ ω → Threads ι τ σ ω α → Prop
  | call {i : ι} {op : ω} : s.phases i = .idle → Step obj s (.call i op) (s.setPhase i (.waiting op s.now))
  | acquire {i : ι} {op : ω} {since : Moment τ} : s.phases i = .waiting op since → s.owner = none →
      Step obj s (.acquire i) { s.setPhase i (.inside op since s.clock (obj.body op)) with owner := some i }
  | read {i : ι} {op : ω} {since : Moment τ} {instant : τ} {next : σ → Program τ σ α} :
      s.phases i = .inside op since instant (.read next) →
      Step obj s (.access i) (s.setPhase i (.inside op since instant (next s.shared)))
  | write {i : ι} {op : ω} {since : Moment τ} {instant : τ} {update : σ → σ} {next : Program τ σ α} :
      s.phases i = .inside op since instant (.write update next) →
      Step obj s (.access i) { s.setPhase i (.inside op since instant next) with shared := update s.shared }
  | sample {i : ι} {op : ω} {since : Moment τ} {instant : τ} {next : τ → Program τ σ α} :
      s.phases i = .inside op since instant (.sample next) →
      Step obj s (.access i) (s.setPhase i (.inside op since s.clock (next s.clock)))
  | release {i : ι} {op : ω} {since : Moment τ} {instant : τ} {result : α} :
      s.phases i = .inside op since instant (.ret result) →
      Step obj s (.release i) { s.setPhase i (.returning ⟨op,since,instant,result⟩) with
        owner := none, served := s.served ++ [⟨op,since,instant,result⟩] }
  | leave {i : ι} {e : Served τ ω α} : s.phases i = .returning e →
      Step obj s (.leave i) { s.setPhase i .idle with returned := s.returned ++ [(e,s.now)] }
  | elapse {now : τ} : s.clock ≤ now → Step obj s (.elapse now) { s with clock := now }

end Steps

variable [Preorder τ]

structure Section (obj : Guarded τ σ ω α) (start : σ) (begun : τ) (s : Threads ι τ σ ω α) (op : ω) (since : Moment τ)
    (instant : τ) (rest : Program τ σ α) (before : σ) : Prop where
  serial : obj.Serial start s.served before
  continues : obj.Continues op instant rest before s.shared
  since_le : since.served ≤ s.served.length ∧ since.clock ≤ instant
  after : ∀ e ∈ s.served, e.instant ≤ instant
  within : begun ≤ instant ∧ instant ≤ s.clock

structure Inv (obj : Guarded τ σ ω α) (start : σ) (begun : τ) (s : Threads ι τ σ ω α) : Prop where
  inside : ∀ i op since instant rest, s.phases i = .inside op since instant rest →
    s.owner = some i ∧ ∃ before, Section obj start begun s op since instant rest before
  owner : ∀ i, s.owner = some i → ∃ op since instant rest, s.phases i = .inside op since instant rest
  free : s.owner = none → obj.Serial start s.served s.shared
  waiting : ∀ i op since, s.phases i = .waiting op since → since.served ≤ s.served.length ∧ since.clock ≤ s.clock
  returning : ∀ i e, s.phases i = .returning e → e ∈ s.served
  order : ∀ (k : ℕ) (e : Served τ ω α), s.served[k]? = some e → e.since.served ≤ k
  instants : (s.served.map Served.instant).Pairwise (· ≤ ·)
  within : begun ≤ s.clock ∧ ∀ e ∈ s.served, begun ≤ e.instant ∧ e.instant ≤ s.clock
  since_le : ∀ e ∈ s.served, e.since.clock ≤ e.instant
  returned : ∀ r ∈ s.returned, r.1 ∈ s.served ∧ r.1.instant ≤ r.2.clock ∧ r.2.clock ≤ s.clock

variable {start : σ} {begun : τ} {s t : Threads ι τ σ ω α} {i j : ι} {p : ThreadPhase τ σ ω α}

theorem initial_inv (start : σ) (begun : τ) :
    Inv obj start begun ({ shared := start, clock := begun } : Threads ι τ σ ω α) where
  inside _ _ _ _ _ h := nomatch h
  owner _ h := nomatch h
  free _ := rfl
  waiting _ _ _ h := nomatch h
  returning _ _ h := nomatch h
  order _ _ h := nomatch h
  instants := .nil
  within := ⟨le_rfl,nofun⟩
  since_le _ h := nomatch h
  returned _ h := nomatch h

theorem Inv.not_inside (hi : Inv obj start begun s) (h : s.owner ≠ some j) (op : ω) (since : Moment τ) (instant : τ)
    (rest : Program τ σ α) : s.phases j ≠ .inside op since instant rest :=
  fun hj => h (hi.inside j op since instant rest hj).1

theorem Inv.serial (hi : Inv obj start begun s) : ∃ before, obj.Serial start s.served before := by
  cases howner : s.owner with
  | none => exact ⟨s.shared,hi.free howner⟩
  | some i =>
    obtain ⟨op,since,instant,rest,hin⟩ := hi.owner i howner
    obtain ⟨_,before,h⟩ := hi.inside i op since instant rest hin
    exact ⟨before,h.serial⟩

theorem Inv.elapse (hi : Inv obj start begun s) {now : τ} (hle : s.clock ≤ now) :
    Inv obj start begun { s with clock := now } := by
  refine ⟨?_,hi.owner,hi.free,?_,hi.returning,hi.order,hi.instants,⟨hi.within.1.trans hle,?_⟩,hi.since_le,?_⟩
  · intro i op since instant rest hin
    obtain ⟨howner,before,h⟩ := hi.inside i op since instant rest hin
    exact ⟨howner,before,h.serial,h.continues,h.since_le,h.after,h.within.1,h.within.2.trans hle⟩
  · exact fun i op since hw => ⟨(hi.waiting i op since hw).1,(hi.waiting i op since hw).2.trans hle⟩
  · exact fun e he => ⟨(hi.within.2 e he).1,(hi.within.2 e he).2.trans hle⟩
  · intro r hr
    obtain ⟨hserved,hinstant,hclock⟩ := hi.returned r hr
    exact ⟨hserved,hinstant,hclock.trans hle⟩

theorem Inv.returns_now (hi : Inv obj start begun s) {e : Served τ ω α} (he : e ∈ s.served) :
    Inv obj start begun { s with returned := s.returned ++ [(e,s.now)] } := by
  refine ⟨?_,hi.owner,hi.free,hi.waiting,hi.returning,hi.order,hi.instants,hi.within,hi.since_le,?_⟩
  · intro i op since instant rest hin
    obtain ⟨howner,before,h⟩ := hi.inside i op since instant rest hin
    exact ⟨howner,before,h.serial,h.continues,h.since_le,h.after,h.within⟩
  · intro r hr
    rcases List.mem_append.mp hr with hr | hr
    · exact hi.returned r hr
    · obtain rfl := List.mem_singleton.mp hr
      exact ⟨he,(hi.within.2 e he).2,le_rfl⟩

variable [DecidableEq ι]

omit [Preorder τ] in
theorem setPhase_cases {q : ThreadPhase τ σ ω α} (h : (s.setPhase i p).phases j = q) :
    j = i ∧ q = p ∨ j ≠ i ∧ s.phases j = q := by
  change Function.update s.phases i p j = q at h
  by_cases hj : j = i
  · rw [hj, Function.update_self] at h
    exact .inl ⟨hj,h.symm⟩
  · rw [Function.update_of_ne hj] at h
    exact .inr ⟨hj,h⟩

theorem Inv.move (hi : Inv obj start begun s) (hout : s.owner ≠ some i)
    (hin : ∀ op since instant rest, p ≠ .inside op since instant rest)
    (hwaiting : ∀ op since, p = .waiting op since → since.served ≤ s.served.length ∧ since.clock ≤ s.clock)
    (hreturning : ∀ e, p = .returning e → e ∈ s.served) : Inv obj start begun (s.setPhase i p) where
  inside j op since instant rest hj := by
    rcases setPhase_cases hj with ⟨_,hp⟩ | ⟨_,hj⟩
    · exact absurd hp.symm (hin op since instant rest)
    · obtain ⟨howner,before,h⟩ := hi.inside j op since instant rest hj
      exact ⟨howner,before,⟨h.serial,h.continues,h.since_le,h.after,h.within⟩⟩
  owner j hj := by
    obtain ⟨op,since,instant,rest,h⟩ := hi.owner j hj
    have hne : j ≠ i := fun heq => hout (heq ▸ hj)
    exact ⟨op,since,instant,rest,(Function.update_of_ne hne ..).trans h⟩
  free := hi.free
  waiting j op since hj := by
    rcases setPhase_cases hj with ⟨_,hp⟩ | ⟨_,hj⟩
    · exact hwaiting op since hp.symm
    · exact hi.waiting j op since hj
  returning j e hj := by
    rcases setPhase_cases hj with ⟨_,hp⟩ | ⟨_,hj⟩
    · exact hreturning e hp.symm
    · exact hi.returning j e hj
  order := hi.order
  instants := hi.instants
  within := hi.within
  since_le := hi.since_le
  returned := hi.returned

theorem Inv.access (hi : Inv obj start begun s) {op : ω} {since : Moment τ} {instant instant' : τ} {rest rest' : Program τ σ α}
    {shared : σ} (hin : s.phases i = .inside op since instant rest)
    (hcont : ∀ before, obj.Continues op instant rest before s.shared → obj.Continues op instant' rest' before shared)
    (hle : instant ≤ instant') (hclock : instant' ≤ s.clock) :
    Inv obj start begun { s.setPhase i (.inside op since instant' rest') with shared } := by
  obtain ⟨howner,before,h⟩ := hi.inside i op since instant rest hin
  refine ⟨?_,?_,?_,?_,?_,hi.order,hi.instants,hi.within,hi.since_le,hi.returned⟩
  · intro j op' since' now rest'' hj
    rcases setPhase_cases hj with ⟨rfl,hp⟩ | ⟨hne,hj⟩
    · cases hp
      refine ⟨howner,before,h.serial,hcont before h.continues,⟨h.since_le.1,h.since_le.2.trans hle⟩,?_,h.within.1.trans hle,hclock⟩
      exact fun e he => (h.after e he).trans hle
    · have hother := (hi.inside j _ _ _ _ hj).1
      exact absurd (Option.some.inj (hother.symm.trans howner)) hne
  · intro j hj
    obtain rfl := Option.some.inj (howner.symm.trans hj)
    exact ⟨op,since,instant',rest',Function.update_self ..⟩
  · intro hnone
    cases howner.symm.trans hnone
  · intro j op' since' hj
    rcases setPhase_cases hj with ⟨_,hp⟩ | ⟨_,hj⟩
    · cases hp
    · exact hi.waiting j op' since' hj
  · intro j e hj
    rcases setPhase_cases hj with ⟨_,hp⟩ | ⟨_,hj⟩
    · cases hp
    · exact hi.returning j e hj

theorem Inv.acquire (hi : Inv obj start begun s) {op : ω} {since : Moment τ} (hw : s.phases i = .waiting op since)
    (hfree : s.owner = none) :
    Inv obj start begun { s.setPhase i (.inside op since s.clock (obj.body op)) with owner := some i } := by
  have hno (j : ι) : s.owner ≠ some j := by rw [hfree]; exact nofun
  refine ⟨?_,?_,nofun,?_,?_,hi.order,hi.instants,hi.within,hi.since_le,hi.returned⟩
  · intro j op' since' now rest' hj
    rcases setPhase_cases hj with ⟨rfl,hp⟩ | ⟨_,hj⟩
    · cases hp
      refine ⟨rfl,s.shared,hi.free hfree,.inl ⟨obj.oneInstant op,fun _ => rfl⟩,hi.waiting j op since hw,?_,hi.within.1,le_rfl⟩
      exact fun e he => (hi.within.2 e he).2
    · exact absurd hj (hi.not_inside (hno j) _ _ _ _)
  · intro j hj
    obtain rfl := Option.some.inj hj
    exact ⟨op,since,s.clock,obj.body op,Function.update_self ..⟩
  · intro j op' since' hj
    rcases setPhase_cases hj with ⟨_,hp⟩ | ⟨_,hj⟩
    · cases hp
    · exact hi.waiting j op' since' hj
  · intro j e hj
    rcases setPhase_cases hj with ⟨_,hp⟩ | ⟨_,hj⟩
    · cases hp
    · exact hi.returning j e hj

theorem Inv.release (hi : Inv obj start begun s) {op : ω} {since : Moment τ} {instant : τ} {result : α}
    (hin : s.phases i = .inside op since instant (.ret result)) :
    Inv obj start begun { s.setPhase i (.returning ⟨op,since,instant,result⟩) with
      owner := none, served := s.served ++ [⟨op,since,instant,result⟩] } := by
  obtain ⟨howner,before,h⟩ := hi.inside i op since instant _ hin
  set e : Served τ ω α := ⟨op,since,instant,result⟩
  have hcall : obj.call e before = (result,s.shared) := h.continues.ret.symm
  have hother (j : ι) (hj : j ≠ i) : s.owner ≠ some j := fun heq => hj (Option.some.inj (heq.symm.trans howner))
  have hlength : (s.served ++ [e]).length = s.served.length + 1 := List.length_append
  refine ⟨?_,nofun,?_,?_,?_,?_,?_,⟨hi.within.1,?_⟩,?_,?_⟩
  · intro j op' since' now rest' hj
    rcases setPhase_cases hj with ⟨_,hp⟩ | ⟨hne,hj⟩
    · cases hp
    · exact absurd hj (hi.not_inside (hother j hne) _ _ _ _)
  · intro _
    have hserial := h.serial.concat (e := e) (by rw [hcall])
    rwa [hcall] at hserial
  · intro j op' since' hj
    rcases setPhase_cases hj with ⟨_,hp⟩ | ⟨_,hj⟩
    · cases hp
    · obtain ⟨hserved,hclock⟩ := hi.waiting j op' since' hj
      exact ⟨hserved.trans (by rw [hlength]; exact Nat.le_succ _),hclock⟩
  · intro j e' hj
    rcases setPhase_cases hj with ⟨_,hp⟩ | ⟨_,hj⟩
    · obtain rfl := ThreadPhase.returning.inj hp
      exact List.mem_append_right _ List.mem_cons_self
    · exact List.mem_append_left _ (hi.returning j e' hj)
  · intro k e' hk
    rw [List.getElem?_append] at hk
    split_ifs at hk with hlt
    · exact hi.order k e' hk
    · obtain ⟨hpos,rfl⟩ := List.getElem?_eq_some_iff.mp hk
      have hsince : e.since.served ≤ s.served.length := h.since_le.1
      have hget : [e][k - s.served.length] = e := List.getElem_singleton _
      rw [hget]
      omega
  · rw [List.map_append]
    refine List.pairwise_append.mpr ⟨hi.instants,List.pairwise_singleton ..,?_⟩
    intro a ha b hb
    obtain ⟨e',he',rfl⟩ := List.mem_map.mp ha
    obtain rfl := List.mem_singleton.mp hb
    exact h.after e' he'
  · intro e' he'
    rcases List.mem_append.mp he' with he' | he'
    · exact hi.within.2 e' he'
    · obtain rfl := List.mem_singleton.mp he'
      exact h.within
  · intro e' he'
    rcases List.mem_append.mp he' with he' | he'
    · exact hi.since_le e' he'
    · obtain rfl := List.mem_singleton.mp he'
      exact h.since_le.2
  · intro r hr
    obtain ⟨hserved,hclock⟩ := hi.returned r hr
    exact ⟨List.mem_append_left _ hserved,hclock⟩

theorem Step.inv {l : Label ι τ ω} (hi : Inv obj start begun s) (hs : Step obj s l t) : Inv obj start begun t := by
  have hout (i : ι) (h : ∀ op since instant rest, s.phases i ≠ .inside op since instant rest) : s.owner ≠ some i := by
    intro howner
    obtain ⟨op,since,instant,rest,hin⟩ := hi.owner i howner
    exact h op since instant rest hin
  cases hs with
  | call hidle =>
    refine hi.move (hout _ ?_) nofun ?_ nofun
    · intro op since instant rest
      rw [hidle]
      exact nofun
    · intro op since h
      cases h
      exact ⟨le_rfl,le_rfl⟩
  | acquire hw hfree => exact hi.acquire hw hfree
  | read hin =>
    have hinstant := (hi.inside _ _ _ _ _ hin).2.choose_spec.within.2
    exact hi.access hin (fun _ => Guarded.Continues.read) le_rfl hinstant
  | write hin =>
    have hinstant := (hi.inside _ _ _ _ _ hin).2.choose_spec.within.2
    exact hi.access hin (fun _ => Guarded.Continues.write) le_rfl hinstant
  | sample hin =>
    have hinstant := (hi.inside _ _ _ _ _ hin).2.choose_spec.within.2
    exact hi.access hin (fun _ h => h.sample s.clock) hinstant le_rfl
  | release hin => exact hi.release hin
  | leave hret =>
    refine (hi.returns_now (hi.returning _ _ hret)).move (hout _ ?_) nofun nofun nofun
    intro op since instant rest
    rw [hret]
    exact nofun
  | elapse hle => exact hi.elapse hle

theorem run_inv {ls : List (Label ι τ ω)}
    (hr : Run (Step obj) { shared := start, clock := begun : Threads ι τ σ ω α } ls s) : Inv obj start begun s :=
  hr.invariant (fun _ _ _ hi hs => hs.inv hi) (initial_inv start begun)

theorem section_ends (obj : Guarded τ σ ω α) {op : ω} {since : Moment τ} {instant : τ} {rest : Program τ σ α}
    (h : s.phases i = .inside op since instant rest) :
    ∃ ls t e, Run (Step obj) s ls t ∧ t.phases = Function.update s.phases i (.returning e) ∧ t.owner = none := by
  induction rest generalizing s instant with
  | ret result =>
    exact ⟨_,_,⟨op,since,instant,result⟩,.single (.release h),rfl,rfl⟩
  | read next ih =>
    obtain ⟨ls,t,e,hr,hp,ho⟩ := ih s.shared (s := s.setPhase i _) (Function.update_self ..)
    refine ⟨_,t,e,.step (.read h) hr,?_,ho⟩
    rw [hp, setPhase, Function.update_idem]
  | write update next ih =>
    obtain ⟨ls,t,e,hr,hp,ho⟩ := ih (s := { s.setPhase i _ with shared := update s.shared }) (Function.update_self ..)
    refine ⟨_,t,e,.step (.write h) hr,?_,ho⟩
    rw [hp, setPhase, Function.update_idem]
  | sample next ih =>
    obtain ⟨ls,t,e,hr,hp,ho⟩ := ih s.clock (s := s.setPhase i _) (Function.update_self ..)
    refine ⟨_,t,e,.step (.sample h) hr,?_,ho⟩
    rw [hp, setPhase, Function.update_idem]

/-- The mutex can always become free, and this takes no thread out of its call but the owner. -/
theorem Inv.frees (hi : Inv obj start begun s) : ∃ ls t, Run (Step obj) s ls t ∧ t.owner = none ∧
    ∀ j op since, s.phases j = .waiting op since → t.phases j = .waiting op since := by
  cases howner : s.owner with
  | none => exact ⟨[],s,.refl,howner,fun _ _ _ h => h⟩
  | some i =>
    obtain ⟨op,since,instant,rest,hin⟩ := hi.owner i howner
    obtain ⟨ls,t,e,hr,hp,ho⟩ := section_ends obj hin
    refine ⟨ls,t,hr,ho,?_⟩
    intro j op' since' hj
    have hne : j ≠ i := by
      rintro rfl
      cases hj.symm.trans hin
    rw [hp, Function.update_of_ne hne, hj]

theorem Inv.returns (hi : Inv obj start begun s) (i : ι) : ∃ ls t, Run (Step obj) s ls t ∧ t.phases i = .idle := by
  have hleave {s : Threads ι τ σ ω α} {e : Served τ ω α} (h : s.phases i = .returning e) :
      ∃ ls t, Run (Step obj) s ls t ∧ t.phases i = .idle :=
    ⟨_,_,.single (.leave h),Function.update_self ..⟩
  have hinside {s : Threads ι τ σ ω α} {op : ω} {since : Moment τ} {instant : τ} {rest : Program τ σ α}
      (h : s.phases i = .inside op since instant rest) : ∃ ls t, Run (Step obj) s ls t ∧ t.phases i = .idle := by
    obtain ⟨ls,t,e,hr,hp,_⟩ := section_ends obj h
    obtain ⟨ls',u,hr',hu⟩ := hleave (s := t) (e := e) (by rw [hp, Function.update_self])
    exact ⟨_,u,hr.trans hr',hu⟩
  cases hphase : s.phases i with
  | idle => exact ⟨[],s,.refl,hphase⟩
  | returning e => exact hleave hphase
  | inside => exact hinside hphase
  | waiting op since =>
    obtain ⟨ls,t,hr,ho,hw⟩ := hi.frees
    have hwaiting := hw i op since hphase
    obtain ⟨ls',u,hr',hu⟩ := hinside (s := { t.setPhase i _ with owner := some i }) (Function.update_self ..)
    exact ⟨_,u,hr.trans (.step (.acquire hwaiting ho) hr'),hu⟩

end Threads
end MiniHil

import Mathlib.Algebra.BigOperators.Group.Finset.Basic
import Mathlib.Algebra.Ring.Nat
import Mathlib.Data.Fintype.Basic
import Mathlib.Data.Prod.Lex
import MiniHil.Foundation.Runs

/-! # Waiting for a signal

`main` waits on `g_shutdownCV` until `signalHandler` has set `g_shutdownRequested`. The system runs a handler on
any thread, on top of whatever the thread is doing: also on top of `main` or of another handler inside the section of
`g_shutdownMutex`.
-/
namespace MiniHil
open Runs

/-- The signals that `main` registers the handler for. -/
inductive Signum
  | sigint
  | sigterm
  deriving DecidableEq, Repr

/-- Where `signalHandler` stands. -/
inductive HandlerPlace
  | printing
  | locking
  | setting
  | unlocking
  | notifying
  deriving DecidableEq, Repr

/-- Where `main` stands, from the registration of the handlers on. -/
inductive MainPlace
  | starting
  | locking
  | testing
  | waiting
  | relocking
  | unlocking
  | stopping
  | failed
  deriving DecidableEq, Repr

namespace HandlerPlace

def holds : HandlerPlace → Bool
  | .setting | .unlocking => true
  | .printing | .locking | .notifying => false

def entered : HandlerPlace → Bool
  | .setting | .unlocking | .notifying => true
  | .printing | .locking => false

end HandlerPlace

def MainPlace.holds : MainPlace → Bool
  | .testing | .unlocking => true
  | .starting | .locking | .waiting | .relocking | .stopping | .failed => false

/-- A call of `signalHandler` that has not returned. -/
structure SignalHandler where
  signum : Signum
  place : HandlerPlace := .printing
  deriving DecidableEq, Repr

/-- The threads of the daemon with the handlers that run on each, innermost first. -/
structure MainWait (τ : Type) where
  main : MainPlace := .starting
  handlers : τ → List SignalHandler := fun _ => []
  shutdownMutex : Option τ := none
  shutdownRequested : Bool := false

namespace MainWait
variable {τ : Type} [DecidableEq τ]

inductive Label (τ : Type)
  | signal (thread : τ) (signum : Signum)
  | handler (thread : τ)
  | main
  | spuriousWakeup
  deriving DecidableEq

def setHandlers (s : MainWait τ) (thread : τ) (handlers : List SignalHandler) : MainWait τ :=
  { s with handlers := Function.update s.handlers thread handlers }

/-- A signal is blocked on a thread while its own handler runs there. `main` goes on only when no handler runs on its
thread. -/
inductive Step (mainThread : τ) (s : MainWait τ) : Label τ → MainWait τ → Prop
  | signal {thread : τ} {signum : Signum} : s.main ≠ .failed → signum ∉ (s.handlers thread).map SignalHandler.signum →
      Step mainThread s (.signal thread signum) (s.setHandlers thread ({ signum } :: s.handlers thread))
  -- `signalHandler`
  | prints {thread : τ} {signum : Signum} {below : List SignalHandler} : s.handlers thread = ⟨signum,.printing⟩ :: below →
      Step mainThread s (.handler thread) (s.setHandlers thread (⟨signum,.locking⟩ :: below))
  | locks {thread : τ} {signum : Signum} {below : List SignalHandler} : s.handlers thread = ⟨signum,.locking⟩ :: below →
      s.shutdownMutex = none →
      Step mainThread s (.handler thread) { s.setHandlers thread (⟨signum,.setting⟩ :: below) with shutdownMutex := some thread }
  | sets {thread : τ} {signum : Signum} {below : List SignalHandler} : s.handlers thread = ⟨signum,.setting⟩ :: below →
      Step mainThread s (.handler thread) { s.setHandlers thread (⟨signum,.unlocking⟩ :: below) with shutdownRequested := true }
  | unlocks {thread : τ} {signum : Signum} {below : List SignalHandler} : s.handlers thread = ⟨signum,.unlocking⟩ :: below →
      Step mainThread s (.handler thread) { s.setHandlers thread (⟨signum,.notifying⟩ :: below) with shutdownMutex := none }
  | notifies {thread : τ} {signum : Signum} {below : List SignalHandler} : s.handlers thread = ⟨signum,.notifying⟩ :: below →
      Step mainThread s (.handler thread) { s.setHandlers thread below with
        main := if s.main = .waiting then .relocking else s.main }
  -- `main`: the start, which may fail, and `g_shutdownCV.wait` with its predicate
  | starts : s.handlers mainThread = [] → s.main = .starting → Step mainThread s .main { s with main := .locking }
  | fails : s.handlers mainThread = [] → s.main = .starting → Step mainThread s .main { s with main := .failed }
  | mainLocks : s.handlers mainThread = [] → s.main = .locking ∨ s.main = .relocking → s.shutdownMutex = none →
      Step mainThread s .main { s with main := .testing, shutdownMutex := some mainThread }
  | finds : s.handlers mainThread = [] → s.main = .testing → s.shutdownRequested = true →
      Step mainThread s .main { s with main := .unlocking }
  | waits : s.handlers mainThread = [] → s.main = .testing → s.shutdownRequested = false →
      Step mainThread s .main { s with main := .waiting, shutdownMutex := none }
  | mainUnlocks : s.handlers mainThread = [] → s.main = .unlocking →
      Step mainThread s .main { s with main := .stopping, shutdownMutex := none }
  | spuriousWakeup : s.main = .waiting → Step mainThread s .spuriousWakeup { s with main := .relocking }

/-- A handler has interrupted the section of its own thread, before it takes the mutex itself. -/
def Interrupted (s : MainWait τ) : Prop :=
  ∃ thread h below, s.shutdownMutex = some thread ∧ s.handlers thread = h :: below ∧ h.place.entered = false

def Calm (mainThread : τ) (s : MainWait τ) (l : Label τ) (t : MainWait τ) : Prop :=
  Step mainThread s l t ∧ (l = .main ∨ ∃ thread, l = .handler thread)

/-- The steps that have to be taken, while only so many more signals and spurious wake-ups come. -/
def Prompt (mainThread : τ) (p : MainWait τ × ℕ) (l : Label τ) (q : MainWait τ × ℕ) : Prop :=
  Calm mainThread p.1 l q.1 ∧ q.2 = p.2

/-- These and the signals and wake-ups, as long as no further section is interrupted. -/
def Works (mainThread : τ) (p : MainWait τ × ℕ) (l : Label τ) (q : MainWait τ × ℕ) : Prop :=
  Prompt mainThread p l q ∨ Step mainThread p.1 l q.1 ∧ q.2 < p.2 ∧ (q.1.Interrupted → p.1.Interrupted)

variable {mainThread thread : τ} {s t : MainWait τ} {l : Label τ} {ls : List (Label τ)}

/-- Whether `main` holds the mutex under the handlers of a thread. -/
def base (mainThread : τ) (s : MainWait τ) (thread : τ) : Bool := decide (thread = mainThread) && s.main.holds

def Nested (base : Bool) : List SignalHandler → Prop
  | [] => True
  | h :: below => (h.place.entered = true → base = false ∧ ∀ b ∈ below, b.place.holds = false) ∧ Nested base below

def Holds (mainThread : τ) (s : MainWait τ) (thread : τ) : Prop :=
  (∃ h ∈ s.handlers thread, h.place.holds = true) ∨ s.base mainThread thread = true

/-- The handler is about to wake `main`. -/
def WillNotify (s : MainWait τ) : Prop :=
  ∃ thread, ∃ h ∈ s.handlers thread, h.place = .unlocking ∨ h.place = .notifying

structure Inv (mainThread : τ) (s : MainWait τ) : Prop where
  mutex : ∀ thread, s.shutdownMutex = some thread ↔ s.Holds mainThread thread
  nested : ∀ thread, Nested (s.base mainThread thread) (s.handlers thread)
  requested : s.WillNotify ∨ s.main = .unlocking ∨ s.main = .stopping → s.shutdownRequested = true
  woken : s.main = .waiting → s.shutdownRequested = true → s.WillNotify

variable {h h' : SignalHandler} {below handlers : List SignalHandler}

theorem forall_handlers {P : τ → List SignalHandler → Prop} (ht : t.handlers = Function.update s.handlers thread handlers)
    (hself : P thread handlers) (hother : ∀ other ≠ thread, P other (s.handlers other)) (other : τ) :
    P other (t.handlers other) := by
  rw [ht]
  by_cases heq : other = thread
  · subst heq
    rw [Function.update_self]
    exact hself
  · rw [Function.update_of_ne heq]
    exact hother other heq

theorem holds_congr (hmain : t.main.holds = s.main.holds)
    (hhandlers : ∀ thread, (∃ h ∈ t.handlers thread, h.place.holds = true) ↔ ∃ h ∈ s.handlers thread, h.place.holds = true)
    (thread : τ) : t.Holds mainThread thread ↔ s.Holds mainThread thread := by
  unfold Holds base
  rw [hmain, hhandlers]

theorem Inv.mutex_top (hi : Inv mainThread s) (hth : s.handlers thread = h :: below)
    (ht : t.handlers = Function.update s.handlers thread (h' :: below)) (hh : h'.place.holds = h.place.holds)
    (hmain : t.main.holds = s.main.holds)
    (hmutex : t.shutdownMutex = s.shutdownMutex) (other : τ) :
    t.shutdownMutex = some other ↔ t.Holds mainThread other := by
  rw [hmutex, hi.mutex, holds_congr hmain]
  refine forall_handlers (P := fun other handlers => (∃ h ∈ handlers, h.place.holds = true) ↔
    ∃ h ∈ s.handlers other, h.place.holds = true) ht ?_ fun _ _ => Iff.rfl
  rw [hth, List.exists_mem_cons_iff, List.exists_mem_cons_iff, hh]

theorem Inv.nested_top (hi : Inv mainThread s) (hn : Nested (s.base mainThread thread) handlers)
    (ht : t.handlers = Function.update s.handlers thread handlers) (hmain : t.main.holds = s.main.holds) (other : τ) :
    Nested (t.base mainThread other) (t.handlers other) := by
  have hbase (other : τ) : t.base mainThread other = s.base mainThread other := by rw [base, hmain, base]
  rw [hbase]
  exact forall_handlers (P := fun other handlers => Nested (s.base mainThread other) handlers) ht hn
    (fun other _ => hi.nested other) other

omit [DecidableEq τ] in
theorem WillNotify.mono (hs : s.WillNotify)
    (hsub : ∀ thread, ∀ h ∈ s.handlers thread, h.place = .unlocking ∨ h.place = .notifying → h ∈ t.handlers thread) :
    t.WillNotify := by
  obtain ⟨thread,h,hmem,hp⟩ := hs
  exact ⟨thread,h,hsub thread h hmem hp,hp⟩

/-- What was on a thread is still there, but for a top that does not notify. -/
theorem mem_push (hth : s.handlers thread = below) (ht : t.handlers = Function.update s.handlers thread (h' :: below))
    (other : τ) (h : SignalHandler) (hmem : h ∈ s.handlers other) : h ∈ t.handlers other := by
  refine forall_handlers (P := fun other handlers => h ∈ s.handlers other → h ∈ handlers) ht ?_ (fun _ _ => id) other hmem
  rw [hth]
  exact List.mem_cons_of_mem _

theorem mem_replace (hth : s.handlers thread = h :: below) (hp : h.place ≠ .unlocking ∧ h.place ≠ .notifying)
    (ht : t.handlers = Function.update s.handlers thread (h' :: below)) (other : τ) (k : SignalHandler)
    (hmem : k ∈ s.handlers other) (hk : k.place = .unlocking ∨ k.place = .notifying) : k ∈ t.handlers other := by
  refine forall_handlers (P := fun other handlers => k ∈ s.handlers other → k ∈ handlers) ht ?_ (fun _ _ => id) other hmem
  rw [hth]
  intro hmem
  rcases List.mem_cons.mp hmem with rfl | hmem
  · exact absurd hk (not_or.mpr hp)
  · exact List.mem_cons_of_mem _ hmem

theorem willNotify_top (hth : ∀ h ∈ below, h ∈ s.handlers thread) (ht : t.handlers = Function.update s.handlers thread (h' :: below))
    (hw : t.WillNotify) : (h'.place = .unlocking ∨ h'.place = .notifying) ∨ s.WillNotify := by
  obtain ⟨other,k,hmem,hk⟩ := hw
  have hcases : k ∈ t.handlers other → k = h' ∨ k ∈ s.handlers other := by
    refine forall_handlers (P := fun other handlers => k ∈ handlers → k = h' ∨ k ∈ s.handlers other) ht ?_ (fun _ _ => .inr) other
    intro hmem
    exact (List.mem_cons.mp hmem).imp id (hth k)
  rcases hcases hmem with rfl | hmem
  · exact .inl hk
  · exact .inr ⟨other,k,hmem,hk⟩

theorem top_mem (ht : t.handlers = Function.update s.handlers thread (h' :: below)) : h' ∈ t.handlers thread := by
  rw [ht, Function.update_self]
  exact List.mem_cons_self

theorem holds_self (ht : t.handlers = Function.update s.handlers thread handlers) (hmain : t.main.holds = s.main.holds) :
    t.Holds mainThread thread ↔ (∃ h ∈ handlers, h.place.holds = true) ∨ s.base mainThread thread = true := by
  unfold Holds base
  rw [ht, Function.update_self, hmain]

theorem holds_of_ne (ht : t.handlers = Function.update s.handlers thread handlers) (hmain : t.main.holds = s.main.holds)
    {other : τ} (hne : other ≠ thread) : t.Holds mainThread other ↔ s.Holds mainThread other := by
  unfold Holds base
  rw [ht, Function.update_of_ne hne, hmain]

theorem Inv.free (hi : Inv mainThread s) (hm : s.shutdownMutex = none) (thread : τ) : ¬s.Holds mainThread thread := by
  rw [← hi.mutex, hm]
  exact Option.some_ne_none _ ∘ Eq.symm

theorem Inv.unique (hi : Inv mainThread s) {other : τ} (hth : s.Holds mainThread thread) (ho : s.Holds mainThread other) :
    other = thread :=
  Option.some.inj (((hi.mutex other).mpr ho).symm.trans ((hi.mutex thread).mpr hth))

theorem Inv.top (hi : Inv mainThread s) (hth : s.handlers thread = h :: below) :
    (h.place.entered = true → s.base mainThread thread = false ∧ ∀ b ∈ below, b.place.holds = false) ∧
      Nested (s.base mainThread thread) below := by
  have hn := hi.nested thread
  rw [hth] at hn
  exact hn

theorem holds_top (hth : s.handlers thread = h :: below) (hh : h.place.holds = true) : s.Holds mainThread thread :=
  .inl ⟨h,hth ▸ List.mem_cons_self,hh⟩

theorem Inv.prints (hi : Inv mainThread s) {signum : Signum} (hth : s.handlers thread = ⟨signum,.printing⟩ :: below) :
    Inv mainThread (s.setHandlers thread (⟨signum,.locking⟩ :: below)) := by
  have ht : (s.setHandlers thread (⟨signum,.locking⟩ :: below)).handlers =
      Function.update s.handlers thread (⟨signum,.locking⟩ :: below) := rfl
  have hnested : Nested (s.base mainThread thread) (⟨signum,.locking⟩ :: below) :=
    ⟨fun h => absurd h Bool.false_ne_true,(hi.top hth).2⟩
  refine ⟨hi.mutex_top hth ht rfl rfl rfl,hi.nested_top hnested ht rfl,?_,?_⟩
  · rintro (hw | hmain)
    · rcases willNotify_top (fun h hmem => hth ▸ List.mem_cons_of_mem _ hmem) ht hw with (h | h) | hw
      · cases h
      · cases h
      · exact hi.requested (.inl hw)
    · exact hi.requested (.inr hmain)
  · intro hmain hreq
    exact (hi.woken hmain hreq).mono (mem_replace hth (by simp) ht)

theorem Inv.locks (hi : Inv mainThread s) {signum : Signum} (hth : s.handlers thread = ⟨signum,.locking⟩ :: below)
    (hfree : s.shutdownMutex = none) :
    Inv mainThread { s.setHandlers thread (⟨signum,.setting⟩ :: below) with shutdownMutex := some thread } := by
  set t := { s.setHandlers thread (⟨signum,.setting⟩ :: below) with shutdownMutex := some thread }
  have ht : t.handlers = Function.update s.handlers thread (⟨signum,.setting⟩ :: below) := rfl
  have hnone := hi.free hfree
  have hnested : Nested (s.base mainThread thread) (⟨signum,.setting⟩ :: below) := by
    refine ⟨fun _ => ⟨Bool.eq_false_iff.mpr fun h => hnone thread (.inr h),fun b hb => ?_⟩,(hi.top hth).2⟩
    exact Bool.eq_false_iff.mpr fun h => hnone thread (.inl ⟨b,hth ▸ List.mem_cons_of_mem _ hb,h⟩)
  refine ⟨?_,hi.nested_top hnested ht rfl,?_,?_⟩
  · intro other
    by_cases heq : other = thread
    · subst heq
      exact iff_of_true rfl ((holds_self ht rfl).mpr (.inl ⟨_,List.mem_cons_self,rfl⟩))
    · exact iff_of_false (fun h => heq (Option.some.inj h).symm) (mt (holds_of_ne ht rfl heq).mp (hnone other))
  · rintro (hw | hmain)
    · rcases willNotify_top (fun h hmem => hth ▸ List.mem_cons_of_mem _ hmem) ht hw with (h | h) | hw
      · cases h
      · cases h
      · exact hi.requested (.inl hw)
    · exact hi.requested (.inr hmain)
  · intro hmain hreq
    exact (hi.woken hmain hreq).mono (mem_replace hth (by simp) ht)

theorem Inv.sets (hi : Inv mainThread s) {signum : Signum} (hth : s.handlers thread = ⟨signum,.setting⟩ :: below) :
    Inv mainThread { s.setHandlers thread (⟨signum,.unlocking⟩ :: below) with shutdownRequested := true } := by
  set t := { s.setHandlers thread (⟨signum,.unlocking⟩ :: below) with shutdownRequested := true }
  have ht : t.handlers = Function.update s.handlers thread (⟨signum,.unlocking⟩ :: below) := rfl
  have htop := hi.top hth
  have hnested : Nested (s.base mainThread thread) (⟨signum,.unlocking⟩ :: below) := ⟨fun _ => htop.1 rfl,htop.2⟩
  exact ⟨hi.mutex_top hth ht rfl rfl rfl,hi.nested_top hnested ht rfl,fun _ => rfl,fun _ _ => ⟨thread,_,top_mem ht,.inl rfl⟩⟩

theorem Inv.unlocks (hi : Inv mainThread s) {signum : Signum} (hth : s.handlers thread = ⟨signum,.unlocking⟩ :: below) :
    Inv mainThread { s.setHandlers thread (⟨signum,.notifying⟩ :: below) with shutdownMutex := none } := by
  set t := { s.setHandlers thread (⟨signum,.notifying⟩ :: below) with shutdownMutex := none }
  have ht : t.handlers = Function.update s.handlers thread (⟨signum,.notifying⟩ :: below) := rfl
  obtain ⟨hentered,hbelow⟩ := hi.top hth
  obtain ⟨hbase,hnone⟩ := hentered rfl
  have hnested : Nested (s.base mainThread thread) (⟨signum,.notifying⟩ :: below) := ⟨fun _ => ⟨hbase,hnone⟩,hbelow⟩
  refine ⟨?_,hi.nested_top hnested ht rfl,?_,fun _ _ => ⟨thread,_,top_mem ht,.inr rfl⟩⟩
  · intro other
    refine iff_of_false (Option.some_ne_none _ ∘ Eq.symm) ?_
    by_cases heq : other = thread
    · subst heq
      rw [holds_self ht rfl, hbase]
      rintro (⟨k,hk,hh⟩ | hb)
      · rcases List.mem_cons.mp hk with rfl | hk
        · cases hh
        · rw [hnone k hk] at hh
          cases hh
      · cases hb
    · rw [holds_of_ne ht rfl heq]
      exact fun ho => heq (hi.unique (holds_top hth rfl) ho)
  · intro _
    exact hi.requested (.inl ⟨thread,_,hth ▸ List.mem_cons_self,.inl rfl⟩)

theorem Inv.notifies (hi : Inv mainThread s) {signum : Signum} (hth : s.handlers thread = ⟨signum,.notifying⟩ :: below) :
    Inv mainThread { s.setHandlers thread below with main := if s.main = MainPlace.waiting then .relocking else s.main } := by
  set t := { s.setHandlers thread below with main := if s.main = MainPlace.waiting then .relocking else s.main }
  have ht : t.handlers = Function.update s.handlers thread below := rfl
  have hreq : s.shutdownRequested = true := hi.requested (.inl ⟨thread,_,hth ▸ List.mem_cons_self,.inr rfl⟩)
  have hmain : t.main.holds = s.main.holds := by
    change (if s.main = MainPlace.waiting then MainPlace.relocking else s.main).holds = s.main.holds
    split_ifs with hm
    · rw [hm]
      rfl
    · rfl
  refine ⟨?_,hi.nested_top (hi.top hth).2 ht hmain,fun _ => hreq,?_⟩
  · intro other
    change s.shutdownMutex = some other ↔ _
    rw [hi.mutex]
    by_cases heq : other = thread
    · subst heq
      rw [holds_self ht hmain, Holds, hth, List.exists_mem_cons_iff]
      exact or_congr_left ⟨fun h => h.resolve_left Bool.false_ne_true,.inr⟩
    · exact (holds_of_ne ht hmain heq).symm
  · intro hwait
    change (if s.main = .waiting then MainPlace.relocking else s.main) = .waiting at hwait
    split_ifs at hwait with hm
    exact absurd hwait hm

theorem Inv.signal (hi : Inv mainThread s) (signum : Signum) :
    Inv mainThread (s.setHandlers thread ({ signum } :: s.handlers thread)) := by
  have ht : (s.setHandlers thread ({ signum } :: s.handlers thread)).handlers =
      Function.update s.handlers thread ({ signum } :: s.handlers thread) := rfl
  have hnested : Nested (s.base mainThread thread) ({ signum } :: s.handlers thread) :=
    ⟨fun h => absurd h Bool.false_ne_true,hi.nested thread⟩
  refine ⟨?_,hi.nested_top hnested ht rfl,?_,fun hmain hreq => (hi.woken hmain hreq).mono fun other h hmem _ => mem_push rfl ht other h hmem⟩
  · intro other
    change s.shutdownMutex = some other ↔ _
    rw [hi.mutex]
    by_cases heq : other = thread
    · subst heq
      rw [holds_self ht rfl, Holds, List.exists_mem_cons_iff]
      exact or_congr_left ⟨.inr,fun h => h.resolve_left Bool.false_ne_true⟩
    · exact (holds_of_ne ht rfl heq).symm
  · rintro (hw | hmain)
    · rcases willNotify_top (fun h hmem => hmem) ht hw with (h | h) | hw
      · cases h
      · cases h
      · exact hi.requested (.inl hw)
    · exact hi.requested (.inr hmain)

theorem holds_main (hnil : s.handlers mainThread = []) : s.Holds mainThread mainThread ↔ s.main.holds = true := by
  simp [Holds, base, hnil]

theorem holds_other {other : τ} (hne : other ≠ mainThread) :
    s.Holds mainThread other ↔ ∃ h ∈ s.handlers other, h.place.holds = true := by
  simp [Holds, base, hne]

theorem Inv.of_main (hi : Inv mainThread s) (hnil : s.handlers mainThread = []) {main : MainPlace} {shutdownMutex : Option τ}
    (hself : shutdownMutex = some mainThread ↔ main.holds = true)
    (hother : ∀ other ≠ mainThread, shutdownMutex = some other ↔ s.shutdownMutex = some other)
    (hreq : main = .unlocking ∨ main = .stopping → s.shutdownRequested = true)
    (hwoken : main = .waiting → s.shutdownRequested = false) : Inv mainThread { s with main, shutdownMutex } where
  mutex other := by
    by_cases heq : other = mainThread
    · subst heq
      exact hself.trans (holds_main (s := { s with main, shutdownMutex }) hnil).symm
    · refine (hother other heq).trans ?_
      rw [hi.mutex, holds_other heq, holds_other heq]
  nested other := by
    by_cases heq : other = mainThread
    · subst heq
      change Nested _ (s.handlers other)
      rw [hnil]
      trivial
    · have hn := hi.nested other
      unfold base at hn ⊢
      rw [decide_eq_false heq, Bool.false_and] at hn ⊢
      exact hn
  requested h := h.elim (fun hw => hi.requested (.inl hw)) hreq
  woken hmain h := by
    rw [hwoken hmain] at h
    cases h

theorem Step.inv (hi : Inv mainThread s) (hs : Step mainThread s l t) : Inv mainThread t := by
  have hkept {main : MainPlace} (hnil : s.handlers mainThread = []) (hmain : main.holds = s.main.holds) :
      s.shutdownMutex = some mainThread ↔ main.holds = true := by
    rw [hi.mutex, holds_main hnil, hmain]
  cases hs with
  | signal => exact hi.signal _
  | prints hth => exact hi.prints hth
  | locks hth hfree => exact hi.locks hth hfree
  | sets hth => exact hi.sets hth
  | unlocks hth => exact hi.unlocks hth
  | notifies hth => exact hi.notifies hth
  | starts hnil hmain | fails hnil hmain =>
    exact hi.of_main hnil (hkept hnil (by rw [hmain]; rfl)) (fun _ _ => Iff.rfl) (by simp) (by simp)
  | mainLocks hnil _ hfree =>
    refine hi.of_main hnil (iff_of_true rfl rfl) (fun other hne => ?_) (by simp) (by simp)
    rw [hfree]
    exact iff_of_false (fun h => hne (Option.some.inj h).symm) (Option.some_ne_none _ ∘ Eq.symm)
  | finds hnil hmain hreq =>
    exact hi.of_main hnil (hkept hnil (by rw [hmain]; rfl)) (fun _ _ => Iff.rfl) (fun _ => hreq) (by simp)
  | waits hnil hmain hreq =>
    have hheld : s.shutdownMutex = some mainThread := (hi.mutex _).mpr ((holds_main hnil).mpr (by rw [hmain]; rfl))
    refine hi.of_main hnil (iff_of_false (Option.some_ne_none _ ∘ Eq.symm) Bool.false_ne_true) (fun other hne => ?_) (by simp) fun _ => hreq
    rw [hheld]
    exact iff_of_false (Option.some_ne_none _ ∘ Eq.symm) fun h => hne (Option.some.inj h).symm
  | mainUnlocks hnil hmain =>
    have hheld : s.shutdownMutex = some mainThread := (hi.mutex _).mpr ((holds_main hnil).mpr (by rw [hmain]; rfl))
    refine hi.of_main hnil (iff_of_false (Option.some_ne_none _ ∘ Eq.symm) Bool.false_ne_true) (fun other hne => ?_)
      (fun _ => hi.requested (.inr (.inl hmain))) (by simp)
    rw [hheld]
    exact iff_of_false (Option.some_ne_none _ ∘ Eq.symm) fun h => hne (Option.some.inj h).symm
  | spuriousWakeup hmain =>
    have hsame : ({ s with main := .relocking } : MainWait τ).main.holds = s.main.holds := by
      rw [hmain]
      rfl
    refine ⟨fun other => (hi.mutex other).trans (holds_congr hsame (fun _ => Iff.rfl) other).symm,?_,?_,fun h => by cases h⟩
    · intro other
      unfold base
      rw [hsame]
      exact hi.nested other
    · rintro (hw | h | h)
      · exact hi.requested (.inl hw)
      · cases h
      · cases h

def handlerRank (h : SignalHandler) : ℕ :=
  match h.place with
  | .printing => 5
  | .locking => 4
  | .setting => 3
  | .unlocking => 2
  | .notifying => 1

/-- Without the flag `main` comes back to `waiting`, with it `main` gets through. -/
def mainRank (shutdownRequested : Bool) : MainPlace → ℕ
  | .starting => 9
  | .locking => 8
  | .testing => if shutdownRequested then 3 else 7
  | .waiting => 6
  | .relocking => if shutdownRequested then 4 else 8
  | .unlocking => 2
  | .stopping | .failed => 0

def stackRank (handlers : List SignalHandler) : ℕ := (handlers.map handlerRank).sum

variable [Fintype τ]

def rank (s : MainWait τ) : ℕ := ∑ thread, stackRank (s.handlers thread) + mainRank s.shutdownRequested s.main

theorem sum_stacks (ht : t.handlers = Function.update s.handlers thread handlers) :
    ∑ other, stackRank (t.handlers other) + stackRank (s.handlers thread) =
      ∑ other, stackRank (s.handlers other) + stackRank handlers := by
  have hrest : ∑ other ∈ Finset.univ.erase thread, stackRank (t.handlers other) =
      ∑ other ∈ Finset.univ.erase thread, stackRank (s.handlers other) := by
    refine Finset.sum_congr rfl fun other hne => ?_
    rw [ht, Function.update_of_ne (Finset.ne_of_mem_erase hne)]
  have hs := Finset.add_sum_erase Finset.univ (fun other => stackRank (s.handlers other)) (Finset.mem_univ thread)
  have htt := Finset.add_sum_erase Finset.univ (fun other => stackRank (t.handlers other)) (Finset.mem_univ thread)
  rw [hrest, ht, Function.update_self] at htt
  rw [ht]
  omega

theorem mainRank_true_le (shutdownRequested : Bool) (main : MainPlace) : mainRank true main ≤ mainRank shutdownRequested main := by
  cases shutdownRequested <;> cases main <;> decide

theorem rank_top (hth : s.handlers thread = h :: below) (ht : t.handlers = Function.update s.handlers thread (h' :: below))
    (hh : handlerRank h' < handlerRank h) (hmain : t.main = s.main)
    (hreq : t.shutdownRequested = s.shutdownRequested ∨ t.shutdownRequested = true) : rank t < rank s := by
  have hsum := sum_stacks ht
  rw [hth] at hsum
  simp only [stackRank, List.map_cons, List.sum_cons] at hsum
  have hle : mainRank t.shutdownRequested s.main ≤ mainRank s.shutdownRequested s.main := by
    rcases hreq with hreq | hreq
    · rw [hreq]
    · rw [hreq]
      exact mainRank_true_le _ _
  unfold rank
  rw [hmain]
  simp only [stackRank]
  omega

theorem Calm.rank_lt (hi : Inv mainThread s) (hc : Calm mainThread s l t) : rank t < rank s := by
  obtain ⟨hs,hl⟩ := hc
  cases hs with
  | signal | spuriousWakeup => simp at hl
  | prints hth => exact rank_top hth rfl (Nat.lt_succ_self _) rfl (.inl rfl)
  | locks hth => exact rank_top hth rfl (Nat.lt_succ_self _) rfl (.inl rfl)
  | sets hth => exact rank_top hth rfl (Nat.lt_succ_self _) rfl (.inr rfl)
  | unlocks hth => exact rank_top hth rfl (Nat.lt_succ_self _) rfl (.inl rfl)
  | @notifies thread signum below hth =>
    have hreq : s.shutdownRequested = true := hi.requested (.inl ⟨thread,_,hth ▸ List.mem_cons_self,.inr rfl⟩)
    set t := { s.setHandlers thread below with main := if s.main = MainPlace.waiting then .relocking else s.main }
    have hsum := @sum_stacks τ _ thread s t below _ rfl
    have hmain : mainRank t.shutdownRequested t.main ≤ mainRank s.shutdownRequested s.main := by
      change mainRank s.shutdownRequested (if s.main = MainPlace.waiting then .relocking else s.main) ≤ _
      split_ifs with hwait
      · rw [hreq, hwait]
        decide
      · exact le_rfl
    rw [hth] at hsum
    simp only [stackRank, List.map_cons, List.sum_cons, handlerRank] at hsum
    unfold rank
    simp only [stackRank]
    omega
  | starts _ hmain | fails _ hmain | mainUnlocks _ hmain =>
    unfold rank
    rw [hmain]
    simp only [mainRank]
    omega
  | mainLocks _ hmain =>
    unfold rank
    cases hreq : s.shutdownRequested <;> rcases hmain with hmain | hmain <;> simp [hmain, mainRank]
  | finds _ hmain hreq | waits _ hmain hreq =>
    unfold rank
    rw [hmain, hreq]
    simp only [mainRank, ↓reduceIte, Bool.false_eq_true]
    omega

omit [Fintype τ] in
theorem exists_handler_step (hth : s.handlers thread = h :: below) (hfree : h.place = .locking → s.shutdownMutex = none) :
    ∃ t, Calm mainThread s (.handler thread) t := by
  obtain ⟨signum,place⟩ := h
  cases place with
  | printing => exact ⟨_,.prints hth,.inr ⟨thread,rfl⟩⟩
  | locking => exact ⟨_,.locks hth (hfree rfl),.inr ⟨thread,rfl⟩⟩
  | setting => exact ⟨_,.sets hth,.inr ⟨thread,rfl⟩⟩
  | unlocking => exact ⟨_,.unlocks hth,.inr ⟨thread,rfl⟩⟩
  | notifying => exact ⟨_,.notifies hth,.inr ⟨thread,rfl⟩⟩

section
omit [Fintype τ]

end

end MainWait
end MiniHil

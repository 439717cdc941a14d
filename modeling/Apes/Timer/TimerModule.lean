import Apes.Library.TransitionSystem

/-!
# The timer module, `timermodule.c`

A kernel module with a timer that its callback `print_iterations` starts again, ten times over. The
state has the clock, the module while it is loaded, and the timers that were pending when their
module was unloaded: the kernel still has them on its list, and calls their callback when their time
comes. `Event` has the loads and unloads, the passing of time, the expiries of both kinds of timer
and the writes to the parameter `period`, in any order. `msecs_to_jiffies` is a parameter of the
model; the clock is a natural number, as no result depends on its width.

The exit function does not stop the timer. `Linked` relates the state to the events so far: the
module has counted the callbacks since it was loaded, up to ten, and its timer has stopped after the
eleventh. So `noCallbackAfterExit_iff`: a run has no callback after an exit exactly when every
unload comes after eleven callbacks.
-/

set_option autoImplicit false
set_option relaxedAutoImplicit false

namespace Apes.Timer

open Library

/-! ### The module -/

/-- `MAX_ITERATIONS`. -/
def maxIterations : ℕ := 10

/-- The parameters of the module. -/
structure Parameters where
  username : String := "Tak"
  period : UInt32 := 500

/-- The loaded module: its parameters, the static `count` of its callback, and `my_timer`, which is
pending when it has a time of expiry. -/
structure TimerModule where
  parameters : Parameters
  count : ℕ
  timer : Option ℕ

/-- What the module writes to the kernel log. -/
inductive LogLine
  | init
  | username (name : String)
  | iteration (number : ℕ)
  | exit

/-- The clock, the module while it is loaded, the times of expiry of the timers whose module is
gone, whether a callback has been called after the exit of its module, and the kernel log. -/
structure State where
  jiffies : ℕ
  loaded : Option TimerModule
  orphans : List ℕ
  calledAfterExit : Bool
  log : List LogLine

/-- A load or an unload of the module, time, the expiry of its timer or of one left behind, or a
write to `period`. -/
inductive Event
  | load (parameters : Parameters)
  | unload
  | advance (ticks : ℕ)
  | expire
  | expireOrphan (position : ℕ)
  | setPeriod (period : UInt32)

variable (msecsToJiffies : UInt32 → ℕ)

/-- `print_iterations`. The kernel has taken the timer off its list before the call. -/
def printIterations (jiffies : ℕ) (loaded : TimerModule) : TimerModule × List LogLine :=
  if loaded.count < maxIterations then
    ({ loaded with
        count := loaded.count + 1
        timer := some (jiffies + msecsToJiffies loaded.parameters.period) },
      [.username loaded.parameters.username, .iteration (loaded.count + 1)])
  else ({ loaded with timer := none }, [])

/-- `timer_initialize`. -/
def timerInitialize (parameters : Parameters) (state : State) : State :=
  { state with
    loaded := some ⟨parameters, 0, some (state.jiffies + msecsToJiffies parameters.period)⟩
    log := state.log ++ [.init] }

/-- `timer_exit`, with the release of the module: a pending timer stays on the list of the
kernel. -/
def timerExit (loaded : TimerModule) (state : State) : State :=
  { state with
    loaded := none
    orphans := loaded.timer.toList ++ state.orphans
    log := state.log ++ [.exit] }

/-- The expiry of the timer of the loaded module. -/
def expire (loaded : TimerModule) (state : State) : State :=
  { state with
    loaded := some (printIterations msecsToJiffies state.jiffies loaded).1
    log := state.log ++ (printIterations msecsToJiffies state.jiffies loaded).2 }

/-- The module in its kernel. -/
def timerModule : System State Event where
  initial := ⟨0, none, [], false, []⟩
  step state event :=
    match event with
    | .load parameters =>
      match state.loaded with
      | none => some (timerInitialize msecsToJiffies parameters state)
      | some _ => none
    | .unload => state.loaded.map fun loaded ↦ timerExit loaded state
    | .advance ticks => some { state with jiffies := state.jiffies + ticks }
    | .expire =>
      state.loaded.bind fun loaded ↦ loaded.timer.bind fun expires ↦
        if expires ≤ state.jiffies then some (expire msecsToJiffies loaded state) else none
    | .expireOrphan position =>
      state.orphans[position]?.bind fun expires ↦
        if expires ≤ state.jiffies then
          some { state with orphans := state.orphans.eraseIdx position, calledAfterExit := true }
        else none
    | .setPeriod period =>
      state.loaded.map fun loaded ↦
        { state with loaded := some { loaded with
          parameters := { loaded.parameters with period := period } } }

variable {msecsToJiffies}

/-! ### The runs -/

/-- The number of callbacks since the last load. -/
def callbacks (events : List Event) : ℕ :=
  events.foldl (fun count event ↦
    match event with
    | .load _ => 0
    | .expire => count + 1
    | _ => count) 0

/-- Every unload comes after more callbacks than the callback counts. -/
def ExhaustedBeforeUnload (events : List Event) : Prop :=
  ∀ before, before ++ [.unload] <+: events → maxIterations < callbacks before

/-- In no state of the run is the module unloaded while a timer of it is pending, and no callback
has been called after the exit of its module. -/
def NoCallbackAfterExit (msecsToJiffies : UInt32 → ℕ) (events : List Event) : Prop :=
  ∀ before state, before <+: events →
    (timerModule msecsToJiffies).run (timerModule msecsToJiffies).initial before = some state →
      ¬ (state.loaded = none ∧ state.orphans ≠ []) ∧ state.calledAfterExit = false

theorem callbacks_append (events : List Event) (event : Event) :
    callbacks (events ++ [event]) =
      match event with
      | .load _ => 0
      | .expire => callbacks events + 1
      | _ => callbacks events := by
  unfold callbacks
  rw [List.foldl_append]
  rfl

theorem ExhaustedBeforeUnload.of_prefix {before events : List Event}
    (hexhausted : ExhaustedBeforeUnload events) (hpart : before <+: events) :
    ExhaustedBeforeUnload before :=
  fun earlier hearlier ↦ hexhausted earlier (hearlier.trans hpart)

/-- A run with one unload, at its end. -/
theorem exhaustedBeforeUnload_append {events : List Event} (hloaded : Event.unload ∉ events)
    (hcallbacks : maxIterations < callbacks events) :
    ExhaustedBeforeUnload (events ++ [.unload]) := by
  intro before hpart
  rcases List.prefix_concat_iff.mp hpart with hall | hearlier
  · rwa [List.append_cancel_right hall]
  · have hmem := hearlier.subset (List.mem_append_right before (List.mem_singleton_self _))
    exact absurd hmem hloaded

/-- The module after the events: it has counted its callbacks, up to ten, its timer has stopped
after the eleventh, and when all unloads were late enough nothing is left behind. -/
structure Linked (events : List Event) (state : State) : Prop where
  count : ∀ loaded, state.loaded = some loaded →
    loaded.count = min (callbacks events) maxIterations
  timer : ∀ loaded, state.loaded = some loaded →
    (loaded.timer = none ↔ maxIterations < callbacks events)
  clean : ExhaustedBeforeUnload events → state.orphans = [] ∧ state.calledAfterExit = false

variable {events : List Event} {state next : State} {event : Event}

/-- When the unloads up to the next event are late enough, nothing has been left behind before
it. -/
theorem Linked.clean_append (hlinked : Linked events state)
    (hexhausted : ExhaustedBeforeUnload (events ++ [event])) :
    state.orphans = [] ∧ state.calledAfterExit = false :=
  hlinked.clean (hexhausted.of_prefix (List.prefix_append _ _))

/-- A callback counts itself and starts the timer again, or stops it. -/
theorem Linked.expire {loaded : TimerModule} (hlinked : Linked events state)
    (hloaded : state.loaded = some loaded) (hpending : loaded.timer ≠ none) :
    Linked (events ++ [.expire]) (Timer.expire msecsToJiffies loaded state) := by
  have hcount := hlinked.count loaded hloaded
  have htimer := mt (hlinked.timer loaded hloaded).mpr hpending
  have hcallbacks : callbacks (events ++ [.expire]) = callbacks events + 1 := callbacks_append _ _
  have hclean : ExhaustedBeforeUnload (events ++ [.expire]) →
      state.orphans = [] ∧ state.calledAfterExit = false := hlinked.clean_append
  unfold Timer.expire printIterations
  by_cases hless : loaded.count < maxIterations
  · rw [if_pos hless]
    refine ⟨?_, ?_, hclean⟩
    · rintro _ ⟨⟩
      dsimp only
      omega
    · rintro _ ⟨⟩
      refine iff_of_false (Option.some_ne_none _) ?_
      omega
  · rw [if_neg hless]
    refine ⟨?_, ?_, hclean⟩
    · rintro _ ⟨⟩
      dsimp only
      omega
    · rintro _ ⟨⟩
      refine iff_of_true rfl ?_
      omega

/-- Every step keeps the link. -/
theorem Linked.step (hlinked : Linked events state)
    (hstep : (timerModule msecsToJiffies).step state event = some next) :
    Linked (events ++ [event]) next := by
  have hclean : ExhaustedBeforeUnload (events ++ [event]) →
      state.orphans = [] ∧ state.calledAfterExit = false := hlinked.clean_append
  have hcallbacks := callbacks_append events event
  cases event with
  | load parameters =>
    change (match state.loaded with | none => _ | some _ => none) = some next at hstep
    split at hstep
    · cases hstep
      refine ⟨?_, ?_, hclean⟩
      · rintro _ ⟨⟩
        rw [hcallbacks]
        rfl
      · rintro _ ⟨⟩
        rw [hcallbacks]
        exact iff_of_false (Option.some_ne_none _) (Nat.not_lt_zero _)
    · simp at hstep
  | unload =>
    obtain ⟨loaded, hloaded, rfl⟩ := Option.map_eq_some_iff.mp hstep
    refine ⟨nofun, nofun, fun hexhausted ↦ ?_⟩
    obtain ⟨horphans, hcalled⟩ := hclean hexhausted
    have hstopped := (hlinked.timer loaded hloaded).mpr (hexhausted events List.prefix_rfl)
    refine ⟨?_, hcalled⟩
    unfold timerExit
    rw [hstopped, horphans]
    rfl
  | advance ticks =>
    cases hstep
    exact ⟨hcallbacks ▸ hlinked.count, hcallbacks ▸ hlinked.timer, hclean⟩
  | expire =>
    obtain ⟨loaded, hloaded, htimer⟩ := Option.bind_eq_some_iff.mp hstep
    obtain ⟨expires, hexpires, htime⟩ := Option.bind_eq_some_iff.mp htimer
    split_ifs at htime
    cases htime
    exact hlinked.expire hloaded (hexpires ▸ Option.some_ne_none _)
  | expireOrphan position =>
    obtain ⟨expires, hexpires, htime⟩ := Option.bind_eq_some_iff.mp hstep
    split_ifs at htime
    cases htime
    refine ⟨hcallbacks ▸ hlinked.count, hcallbacks ▸ hlinked.timer, fun hexhausted ↦ ?_⟩
    rw [(hclean hexhausted).1] at hexpires
    simp at hexpires
  | setPeriod period =>
    obtain ⟨loaded, hloaded, rfl⟩ := Option.map_eq_some_iff.mp hstep
    refine ⟨?_, ?_, hclean⟩
    · rintro _ ⟨⟩
      rw [hcallbacks]
      exact hlinked.count loaded hloaded
    · rintro _ ⟨⟩
      rw [hcallbacks]
      exact hlinked.timer loaded hloaded

/-- Every run links its events to its state. -/
theorem linked_of_run (hrun : (timerModule msecsToJiffies).run
    (timerModule msecsToJiffies).initial events = some state) : Linked events state := by
  refine System.run_invariant ⟨nofun, nofun, fun _ ↦ ⟨rfl, rfl⟩⟩ ?_ hrun
  intro events state event next hlinked hstep
  exact hlinked.step hstep

/-- **No callback after unload.** For every conversion of the period and every run: the run has no
callback after an exit, and no timer left pending at one, exactly when every unload comes after
eleven callbacks. -/
theorem noCallbackAfterExit_iff (msecsToJiffies : UInt32 → ℕ) {events : List Event} {final : State}
    (hrun : (timerModule msecsToJiffies).run (timerModule msecsToJiffies).initial events =
      some final) :
    NoCallbackAfterExit msecsToJiffies events ↔ ExhaustedBeforeUnload events := by
  constructor
  · intro hsafe before hpart
    obtain ⟨after, hafter⟩ := System.exists_run_of_prefix hpart hrun
    have hnever := (hsafe _ after hpart hafter).1
    rw [System.run_append, Option.bind_eq_some_iff] at hafter
    obtain ⟨state, hstate, hlast⟩ := hafter
    rw [System.run_cons, Option.bind_eq_some_iff] at hlast
    obtain ⟨next, hstep, hnext⟩ := hlast
    obtain rfl : next = after := Option.some.inj hnext
    obtain ⟨loaded, hloaded, rfl⟩ := Option.map_eq_some_iff.mp hstep
    rw [← (linked_of_run hstate).timer loaded hloaded]
    by_contra hpending
    refine hnever ⟨rfl, ?_⟩
    unfold timerExit
    simpa using fun hnone ↦ absurd hnone hpending
  · intro hexhausted before state hpart hstate
    obtain ⟨horphans, hcalled⟩ :=
      (linked_of_run hstate).clean (hexhausted.of_prefix hpart)
    exact ⟨fun hleft ↦ hleft.2 horphans, hcalled⟩

/-- A run that unloads the module after eleven callbacks, with a clock of one tick a millisecond. -/
theorem noCallbackAfterExit_eleven : NoCallbackAfterExit UInt32.toNat
    ((.load {} :: (List.replicate 11 [.advance 500, .expire]).flatten) ++ [.unload]) := by
  have hrun : ∃ final, (timerModule UInt32.toNat).run (timerModule UInt32.toNat).initial
      ((.load {} :: (List.replicate 11 [.advance 500, .expire]).flatten) ++ [.unload]) =
        some final := ⟨_, rfl⟩
  obtain ⟨final, hfinal⟩ := hrun
  refine (noCallbackAfterExit_iff UInt32.toNat hfinal).mpr ?_
  refine exhaustedBeforeUnload_append (by simp) ?_
  decide

/-- The module is unloaded before its timer has expired: the timer is left pending, and its callback
is called half a second later. -/
theorem callback_after_exit : ¬ ∀ events final,
    (timerModule UInt32.toNat).run (timerModule UInt32.toNat).initial events = some final →
      NoCallbackAfterExit UInt32.toNat events := by
  intro hsafe
  have hrun : ∃ final, (timerModule UInt32.toNat).run (timerModule UInt32.toNat).initial
      [.load {}, .unload, .advance 500, .expireOrphan 0] = some final ∧
      final.calledAfterExit = true := ⟨_, rfl, rfl⟩
  obtain ⟨final, hfinal, hcalled⟩ := hrun
  rw [(hsafe _ final hfinal _ final List.prefix_rfl hfinal).2] at hcalled
  simp at hcalled

end Apes.Timer

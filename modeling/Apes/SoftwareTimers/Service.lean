import Apes.SoftwareTimers.Placement

/-!
# The timer service keeps its timers in place

`WellPlaced` and `Timely` hold in every state that the service reaches in a punctual run
(`wellPlaced_of_reachable`): there is one lemma for the passing of time, one for a command that is
sent and one for each stage of the service task. The stages that call a timer or execute a command
are taken from `Fired.cases` and `Executed`.

`blocked_of_reachable` is what that means for the sleep of the service task: it never sleeps past
the expiry of a timer, and it sleeps without a limit only when there is no timer at all.
-/

set_option autoImplicit false
set_option relaxedAutoImplicit false

namespace Apes.SoftwareTimers

open Library

variable {driver : ListDriver} {service next : TimerService}

/-! ### Insertions and commands -/

/-- An insertion changes the lists only: they hold the item besides what they held, and they are in
order. Assumes: the item has its value, and its timer is live and in neither list. -/
theorem Inserted.filed {item : TimerListItem} (hinserted : Inserted driver item service next)
    (hlists : FiledLists service.round service.timers service.pxCurrentTimerList
      service.pxOverflowTimerList)
    (hvalue : item.xItemValue = UInt32.ofNat item.due)
    (hlive : (service.timers item.pvOwner).isSome = true)
    (hfresh : ∀ entry ∈ service.items, entry.pvOwner ≠ item.pvOwner) :
    ∃ near far, next = { service with pxCurrentTimerList := near, pxOverflowTimerList := far } ∧
      FiledLists service.round service.timers near far ∧
      (near ++ far).Perm (item :: service.items) := by
  obtain ⟨rfl, hepoch⟩ | ⟨rfl, hepoch⟩ := hinserted
  · exact ⟨_, _, rfl, hlists.insertCurrent driver hepoch hvalue hlive hfresh,
      (driver.inserted _ item).append_right _⟩
  · exact ⟨_, _, rfl, hlists.insertOverflow driver hepoch hvalue hlive hfresh,
      ((driver.inserted _ item).append_left _).trans List.perm_middle⟩

/-- A command is appended to the queue, or refused when there is no room. -/
theorem xTimerGenericCommand_cases (message : DaemonTaskMessage) (service : TimerService) :
    (service.xTimerQueue.length < configTimerQueueLength ∧
      (service.xTimerGenericCommand message).2 =
        { service with xTimerQueue := service.xTimerQueue ++ [message] }) ∨
    (¬ service.xTimerQueue.length < configTimerQueueLength ∧
      (service.xTimerGenericCommand message).2 = service) := by
  unfold TimerService.xTimerGenericCommand
  split_ifs with hroom
  · exact .inl ⟨hroom, rfl⟩
  · exact .inr ⟨hroom, rfl⟩

/-- What the call of a timer changes: its item leaves the current list; the timer is not started
again, or a command for it is sent, or its next item is in the lists. -/
theorem Fired.cases {stage : DaemonStage} {item : TimerListItem} {rest : List TimerListItem}
    {timer : Timer} (hfired : Fired driver stage item rest timer service next)
    (hlists : FiledLists service.round service.timers service.pxCurrentTimerList
      service.pxOverflowTimerList) :
    ∃ near far queue, next = { service with
        pxCurrentTimerList := near
        pxOverflowTimerList := far
        xTimerQueue := queue
        calls := service.calls ++ [⟨item.pvOwner, item.due, service.ticks⟩]
        stage := stage } ∧
      FiledLists service.round service.timers near far ∧
      ((near = rest ∧ far = service.pxOverflowTimerList ∧ queue = service.xTimerQueue ∧
        (timer.uxAutoReload = true → configTimerQueueLength ≤ service.xTimerQueue.length)) ∨
      (near = rest ∧ far = service.pxOverflowTimerList ∧ timer.uxAutoReload = true ∧
        service.xTimerQueue.length < configTimerQueueLength ∧
        queue = service.xTimerQueue ++
          [⟨.startDontTrace, UInt32.ofNat item.due, item.pvOwner, item.due⟩]) ∨
      (queue = service.xTimerQueue ∧ timer.uxAutoReload = true ∧
        (near ++ far).Perm (⟨UInt32.ofNat (item.due + timer.xTimerPeriodInTicks.toNat),
          item.pvOwner, item.due + timer.xTimerPeriodInTicks.toNat⟩ ::
            (rest ++ service.pxOverflowTimerList)))) := by
  obtain ⟨hfirst, hlive, -, reloaded, hreloaded, rfl⟩ := hfired
  rw [hfirst] at hlists
  obtain ⟨htail, hfresh⟩ := hlists.tail
  cases hreloaded with
  | oneShot hreload =>
    refine ⟨rest, service.pxOverflowTimerList, service.xTimerQueue, rfl, htail,
      .inl ⟨rfl, rfl, rfl, ?_⟩⟩
    rw [hreload]
    exact nofun
  | command hreload =>
    rcases xTimerGenericCommand_cases
      ⟨.startDontTrace, UInt32.ofNat item.due, item.pvOwner, item.due⟩
      { service with pxCurrentTimerList := rest } with ⟨hroom, heq⟩ | ⟨hfull, heq⟩
    · rw [heq]
      exact ⟨rest, service.pxOverflowTimerList, _, rfl, htail,
        .inr (.inl ⟨rfl, rfl, hreload, hroom, rfl⟩)⟩
    · rw [heq]
      exact ⟨rest, service.pxOverflowTimerList, service.xTimerQueue, rfl, htail,
        .inl ⟨rfl, rfl, rfl, fun _ ↦ Nat.not_lt.mp hfull⟩⟩
  | direct hreload hinserted =>
    obtain ⟨near, far, rfl, hfiled, hperm⟩ :=
      hinserted.filed htail rfl (by rw [hlive]; rfl) hfresh
    exact ⟨near, far, service.xTimerQueue, rfl, hfiled, .inr (.inr ⟨rfl, hreload, hperm⟩)⟩

/-! ### Time and commands of other tasks -/

/-- Time passes. -/
theorem WellPlaced.advance (hsound : WellPlaced service) (ticks : ℕ) :
    WellPlaced { service with ticks := service.ticks + ticks } where
  lists := hsound.lists
  queue message hmessage hcounts :=
    ⟨(hsound.queue message hmessage hcounts).1,
      Nat.le_add_right_of_le (hsound.queue message hmessage hcounts).2⟩
  sampled := Nat.le_add_right_of_le hsound.sampled
  stage := hsound.stage

/-- A command that a task sends counts from a tick that has been. -/
theorem stamped_sentMessage (command : CommandId) (handle : TimerHandle) (value : UInt32)
    (waited ticks : ℕ) : (sentMessage command handle value waited ticks).Stamped ticks := by
  intro hcounts
  unfold sentMessage at hcounts ⊢
  split_ifs at hcounts ⊢ with hcommand
  · exact ⟨rfl, Nat.sub_le ticks waited⟩
  · exact absurd hcounts hcommand

/-- A task sends a command. -/
theorem WellPlaced.send (hsound : WellPlaced service) {message : DaemonTaskMessage}
    (hstamped : message.Stamped service.ticks) :
    WellPlaced { service with xTimerQueue := service.xTimerQueue ++ [message] } where
  lists := hsound.lists
  queue other hother := by
    rcases List.mem_append.mp hother with hold | hnew
    · exact hsound.queue other hold
    · exact List.mem_singleton.mp hnew ▸ hstamped
  sampled := hsound.sampled
  stage := hsound.stage

/-- A task sends a command that does not count from a round ago. -/
theorem Timely.send (htimely : Timely service) {message : DaemonTaskMessage}
    (hrecent : message.xMessageID.CountsFrom → service.ticks < message.stamp + tickModulus) :
    Timely { service with xTimerQueue := service.xTimerQueue ++ [message] } where
  items := htimely.items
  commands other hother := by
    rw [List.append_assoc] at hother
    rcases List.mem_append.mp hother with hold | hnew
    · exact htimely.commands other (List.mem_append_left _ hold)
    · rcases List.mem_cons.mp hnew with rfl | hreceived
      · exact hrecent
      · exact htimely.commands other (List.mem_append_right _ hreceived)
  sampled := htimely.sampled

/-! ### The stages of the service task -/

/-- The service is in place and on time. -/
def Sound (service : TimerService) : Prop := WellPlaced service ∧ Timely service

/-- The epoch of the current list, outside of the switch of the lists. -/
theorem round_eq {stage : DaemonStage} (hstage : service.stage = stage)
    (hother : ∀ xTimeNow received, stage ≠ .switching xTimeNow received) :
    service.round = epoch tickModulus service.sampled := by
  unfold TimerService.round
  rw [hstage]
  cases stage with
  | switching xTimeNow received => exact absurd rfl (hother xTimeNow received)
  | query | assess | expired | blocked | commands | execute => rfl

/-- The lists, outside of their switch. -/
theorem WellPlaced.lists_of_stage {stage : DaemonStage} (hplaced : WellPlaced service)
    (hstage : service.stage = stage)
    (hother : ∀ xTimeNow received, stage ≠ .switching xTimeNow received) :
    FiledLists (epoch tickModulus service.sampled) service.timers service.pxCurrentTimerList
      service.pxOverflowTimerList := by
  rw [← round_eq hstage hother]
  exact hplaced.lists

/-- The commands in the queue are on time. -/
theorem Timely.queue (htimely : Timely service) :
    ∀ message ∈ service.xTimerQueue ++ (none : Option DaemonTaskMessage).toList,
      message.xMessageID.CountsFrom → service.ticks < message.stamp + tickModulus := by
  intro message hmessage
  rw [Option.toList_none, List.append_nil] at hmessage
  exact htimely.commands message (List.mem_append_left _ hmessage)

/-- The next expiry time has been asked for. -/
theorem Sound.query (hsound : Sound service) (hstage : service.stage = .query) :
    Sound { service with
      stage := .assess service.prvGetNextExpireTime.1 service.prvGetNextExpireTime.2 } := by
  obtain ⟨hplaced, htimely⟩ := hsound
  have hclock := hplaced.stage
  unfold StageSound at hclock
  rw [hstage] at hclock
  refine ⟨⟨?_, hplaced.queue, hplaced.sampled, ⟨hclock, rfl⟩⟩, ⟨htimely.items, htimely.queue, ?_⟩⟩
  · exact hplaced.lists_of_stage hstage nofun
  · rintro (hitems | hnone)
    · exact htimely.sampled (.inl hitems)
    · exact absurd rfl hnone

/-- The service task is ready again. -/
theorem Sound.wake {since : ℕ} {xTicksToWait : UInt32} {indefinitely : Bool}
    (hsound : Sound service) (hstage : service.stage = .blocked since xTicksToWait indefinitely) :
    Sound { service with stage := .commands } := by
  obtain ⟨hplaced, htimely⟩ := hsound
  have hfacts := hplaced.stage
  unfold StageSound at hfacts
  rw [hstage] at hfacts
  refine ⟨⟨?_, hplaced.queue, hplaced.sampled, hfacts.1⟩, ⟨htimely.items, htimely.queue, ?_⟩⟩
  · exact hplaced.lists_of_stage hstage nofun
  · rintro (hitems | hnone)
    · exact htimely.sampled (.inl hitems)
    · exact absurd rfl hnone

/-- What the service reads: the epoch of the present is that of the current list, or the one after
it when the tick count has become less. Assumes: the clock of the stage, and that it has been read
less than a round ago unless there are no timers. -/
theorem round_of_sample {near far : List TimerListItem}
    (hlists : FiledLists (epoch tickModulus service.sampled) service.timers near far)
    (hle : service.sampled ≤ service.ticks)
    (hrecent : near ++ far ≠ [] → service.ticks < service.sampled + tickModulus) :
    (UInt32.ofNat service.ticks < UInt32.ofNat service.sampled ∧
      0 < epoch tickModulus service.ticks ∧
      FiledLists (epoch tickModulus service.ticks - 1) service.timers near far) ∨
    (¬ UInt32.ofNat service.ticks < UInt32.ofNat service.sampled ∧
      FiledLists (epoch tickModulus service.ticks) service.timers near far) := by
  by_cases hwrapped : UInt32.ofNat service.ticks < UInt32.ofNat service.sampled
  · refine .inl ⟨hwrapped, epoch_pos_of_ofNat_lt hle hwrapped, hlists.of_round fun hitems ↦ ?_⟩
    have hnext := (ofNat_lt_ofNat_iff hle (hrecent hitems)).mp hwrapped
    omega
  · refine .inr ⟨hwrapped, hlists.of_round fun hitems ↦ ?_⟩
    rcases epoch_cases tickModulus_pos hle (hrecent hitems) with hsame | hnext
    · exact hsame.symm
    · exact absurd ((ofNat_lt_ofNat_iff hle (hrecent hitems)).mpr hnext) hwrapped

/-- The wait until the next expiry. Assumes: the current list is of the epoch of the present, and
its first timer has not expired. -/
theorem wait_le_due {since : ℕ} {timers : TimerHandle → Option Timer}
    {near far : List TimerListItem}
    (hlists : FiledLists (epoch tickModulus since) timers near far)
    (hahead : ∀ item rest, near = item :: rest → UInt32.ofNat since < item.xItemValue)
    {xNextExpireTime : UInt32}
    (hnext : xNextExpireTime = near.head?.elim 0 TimerListItem.xItemValue) :
    ∀ item ∈ near ++ far,
      since + (xNextExpireTime - UInt32.ofNat since).toNat ≤ item.due ∧ since < item.due := by
  have hsince := epoch_add_shown tickModulus since
  have hshown := shown_lt tickModulus_pos since
  have hover : ∀ item ∈ far, tickModulus * (epoch tickModulus since + 1) ≤ item.due := by
    intro item hitem
    rw [← hlists.overflow.epoch item hitem]
    exact Nat.mul_div_le item.due tickModulus
  intro item hitem
  cases near with
  | nil =>
    have hbound := hover item hitem
    rw [Nat.mul_succ] at hbound
    have hwait : (xNextExpireTime - UInt32.ofNat since).toNat ≤
        tickModulus - shown tickModulus since := by
      rw [hnext, UInt32.toNat_sub, toNat_ofNat_tick]
      exact Nat.mod_le _ _
    constructor <;> omega
  | cons first rest =>
    have hfirst := hlists.current.value first List.mem_cons_self
    have hepoch := hlists.current.epoch first List.mem_cons_self
    have hless := hahead first rest rfl
    have hlater : since < first.due := by
      rw [hfirst] at hless
      exact Nat.not_le.mp fun hle ↦
        UInt32.not_le.mpr hless ((ofNat_le_ofNat_iff hepoch).mpr hle)
    have hrecent : first.due < since + tickModulus :=
      lt_add_of_epoch_eq tickModulus_pos hepoch.symm
    have hwait : (xNextExpireTime - UInt32.ofNat since).toNat = first.due - since := by
      have hvalue : xNextExpireTime = UInt32.ofNat first.due := hnext.trans hfirst
      rw [hvalue, UInt32.toNat_sub, toNat_ofNat_tick, toNat_ofNat_tick]
      exact shown_sub tickModulus_pos (Nat.le_of_lt hlater) hrecent
    rcases List.mem_append.mp hitem with hnear | hfar
    · have hle := hlists.current.head_due_le item hnear
      constructor <;> omega
    · have hbound := hover item hfar
      have hdue := epoch_add_shown tickModulus first.due
      have hdueShown := shown_lt tickModulus_pos first.due
      rw [hepoch] at hdue
      rw [Nat.mul_succ] at hbound
      constructor <;> omega

/-- The next expiry time has been assessed. -/
theorem Sound.assess {xNextExpireTime : UInt32} {xListWasEmpty : Bool} (hsound : Sound service)
    (hstage : service.stage = .assess xNextExpireTime xListWasEmpty) :
    Sound (service.prvProcessTimerOrBlockTask xNextExpireTime xListWasEmpty) := by
  obtain ⟨hplaced, htimely⟩ := hsound
  have hfacts := hplaced.stage
  unfold StageSound at hfacts
  rw [hstage] at hfacts
  obtain ⟨hclock, hnext⟩ := hfacts
  have hlists := hplaced.lists_of_stage hstage nofun
  have hrecent : service.ticks < service.ticks + tickModulus :=
    Nat.lt_add_of_pos_right tickModulus_pos
  unfold TimerService.prvProcessTimerOrBlockTask TimerService.xTaskGetTickCount
  rw [hclock]
  rcases round_of_sample hlists hplaced.sampled (fun hitems ↦ htimely.sampled (.inl hitems)) with
    ⟨hwrapped, hpositive, hfiled⟩ | ⟨hwrapped, hfiled⟩
  · rw [if_pos hwrapped]
    exact ⟨⟨hfiled, hplaced.queue, Nat.le_refl _, ⟨rfl, hpositive, nofun⟩⟩,
      ⟨htimely.items, htimely.queue, fun _ ↦ hrecent⟩⟩
  · rw [if_neg hwrapped]
    unfold TimerService.prvGetNextExpireTime at hnext
    by_cases hexpired : xListWasEmpty = false ∧ xNextExpireTime ≤ UInt32.ofNat service.ticks
    · rw [if_pos hexpired]
      refine ⟨⟨hfiled, hplaced.queue, Nat.le_refl _, ⟨rfl, rfl, ?_⟩⟩,
        ⟨htimely.items, htimely.queue, fun _ ↦ hrecent⟩⟩
      cases hfirst : service.pxCurrentTimerList with
      | nil =>
        rw [hfirst] at hnext
        exact absurd ((Prod.mk.inj hnext).2.symm.trans hexpired.1) (by decide)
      | cons item rest =>
        rw [hfirst] at hnext hfiled
        have hvalue := hfiled.current.value item List.mem_cons_self
        refine ⟨item, rest, rfl, (Prod.mk.inj hnext).1.symm, ?_⟩
        refine (ofNat_le_ofNat_iff (hfiled.current.epoch item List.mem_cons_self)).mp ?_
        rw [← hvalue, ← (Prod.mk.inj hnext).1]
        exact hexpired.2
    · rw [if_neg hexpired]
      refine ⟨⟨hfiled, hplaced.queue, Nat.le_refl _, ⟨rfl, rfl, fun item hitem ↦ ⟨?_, ?_⟩⟩⟩,
        ⟨htimely.items, htimely.queue, fun _ ↦ hrecent⟩⟩
      · cases hfirst : service.pxCurrentTimerList with
        | nil =>
          rw [hfirst] at hnext
          change item ∈ service.pxCurrentTimerList ++ service.pxOverflowTimerList at hitem
          rw [hfirst, List.nil_append] at hitem
          rw [(Prod.mk.inj hnext).2, if_pos rfl]
          exact List.isEmpty_eq_false_iff.mpr (List.ne_nil_of_mem hitem)
        | cons first rest =>
          rw [hfirst] at hnext
          rw [(Prod.mk.inj hnext).2]
          rfl
      · refine wait_le_due hfiled (fun first rest hfirst ↦ ?_) ?_ item hitem
        · rw [hfirst] at hnext
          refine UInt32.not_le.mp fun hle ↦ hexpired ⟨(Prod.mk.inj hnext).2, ?_⟩
          rw [(Prod.mk.inj hnext).1]
          exact hle
        · cases hfirst : service.pxCurrentTimerList with
          | nil =>
            rw [hfirst] at hnext
            exact (Prod.mk.inj hnext).1
          | cons first rest =>
            rw [hfirst] at hnext
            exact (Prod.mk.inj hnext).1

/-- A command has been received. -/
theorem Sound.receive (hsound : Sound service) (hstage : service.stage = .commands) :
    Sound service.receiveCommand := by
  obtain ⟨hplaced, htimely⟩ := hsound
  have hclock := hplaced.stage
  unfold StageSound at hclock
  rw [hstage] at hclock
  have hlists := hplaced.lists_of_stage hstage nofun
  rcases receiveCommand_cases service with
    ⟨-, hnext⟩ | ⟨message, rest, hqueue, -, hnext⟩ |
    ⟨message, rest, timer, hqueue, hlive, xLastTime, stage, hnext, hread⟩
  · rw [hnext]
    refine ⟨⟨hlists, hplaced.queue, hplaced.sampled, hclock⟩,
      ⟨htimely.items, htimely.queue, ?_⟩⟩
    rintro (hitems | hnone)
    · exact htimely.sampled (.inl hitems)
    · exact absurd rfl hnone
  · rw [hnext]
    have hrest : ∀ other ∈ rest, other ∈ service.xTimerQueue :=
      fun other hother ↦ hqueue ▸ List.mem_cons_of_mem message hother
    refine ⟨⟨hplaced.lists, fun other hother ↦ hplaced.queue other (hrest other hother),
      hplaced.sampled, hplaced.stage⟩,
      ⟨htimely.items, fun other hother ↦ htimely.commands other ?_, htimely.sampled⟩⟩
    rcases List.mem_append.mp hother with hold | hreceived
    · exact List.mem_append_left _ (hrest other hold)
    · exact List.mem_append_right _ hreceived
  · rw [hnext]
    have hrest : ∀ other ∈ rest, other ∈ service.xTimerQueue :=
      fun other hother ↦ hqueue ▸ List.mem_cons_of_mem message hother
    have hmessage : message ∈ service.xTimerQueue := hqueue ▸ List.mem_cons_self
    have htaken : Taken service.ticks service.timers
        (uxListRemove message.pxTimer service.pxCurrentTimerList ++
          uxListRemove message.pxTimer service.pxOverflowTimerList) message :=
      ⟨hplaced.queue message hmessage, by rw [hlive]; rfl,
        fun entry hentry ↦ owner_ne_of_mem_remove hentry⟩
    have hpart : (uxListRemove message.pxTimer service.pxCurrentTimerList ++
        uxListRemove message.pxTimer service.pxOverflowTimerList).Sublist service.items :=
      List.filter_sublist.append List.filter_sublist
    have hcommands : ∀ other ∈ rest ++ [message],
        other.xMessageID.CountsFrom → service.ticks < other.stamp + tickModulus := by
      intro other hother
      refine htimely.commands other (List.mem_append_left _ ?_)
      rcases List.mem_append.mp hother with hold | hnew
      · exact hrest other hold
      · exact List.mem_singleton.mp hnew ▸ hmessage
    have hrecent : service.ticks < service.ticks + tickModulus :=
      Nat.lt_add_of_pos_right tickModulus_pos
    have hround := round_of_sample (hlists.remove message.pxTimer) hplaced.sampled
      fun hitems ↦ htimely.sampled (.inl fun hempty ↦
        hitems (List.sublist_nil.mp (hempty ▸ hpart)))
    rw [hclock] at hread
    rcases hread with ⟨hwrapped, rfl⟩ | ⟨hwrapped, rfl, rfl⟩
    · obtain ⟨-, hpositive, hfiled⟩ | ⟨hnot, -⟩ := hround
      · refine ⟨⟨hfiled, fun other hother ↦ hplaced.queue other (hrest other hother),
            Nat.le_refl _, ⟨rfl, hpositive, fun other hother ↦ ?_⟩⟩,
          ⟨fun entry hentry ↦ htimely.items entry (hpart.subset hentry), hcommands,
            fun _ ↦ hrecent⟩⟩
        exact Option.some.inj hother ▸ htaken
      · exact absurd hwrapped hnot
    · obtain ⟨hless, -⟩ | ⟨-, hfiled⟩ := hround
      · exact absurd hless hwrapped
      · exact ⟨⟨hfiled, fun other hother ↦ hplaced.queue other (hrest other hother),
            Nat.le_refl _, ⟨rfl, rfl, htaken⟩⟩,
          ⟨fun entry hentry ↦ htimely.items entry (hpart.subset hentry), hcommands,
            fun _ ↦ hrecent⟩⟩

/-- The items after a timer has been called: each belongs to a timer that had an item, and expires
no earlier than it. -/
theorem Fired.items {stage : DaemonStage} {item : TimerListItem} {rest : List TimerListItem}
    {timer : Timer} (hfired : Fired driver stage item rest timer service next)
    (hlists : FiledLists service.round service.timers service.pxCurrentTimerList
      service.pxOverflowTimerList) :
    ∀ entry ∈ next.items, ∃ old ∈ service.items,
      entry.pvOwner = old.pvOwner ∧ old.due ≤ entry.due := by
  have hkept : ∀ entry ∈ rest ++ service.pxOverflowTimerList, entry ∈ service.items := by
    intro entry hentry
    unfold TimerService.items
    rw [hfired.first]
    exact List.mem_cons_of_mem item hentry
  have hitem : item ∈ service.items := by
    unfold TimerService.items
    rw [hfired.first]
    exact List.mem_cons_self
  obtain ⟨near, far, queue, rfl, -, hcases⟩ := hfired.cases hlists
  intro entry hentry
  change entry ∈ near ++ far at hentry
  rcases hcases with ⟨rfl, rfl, -⟩ | ⟨rfl, rfl, -⟩ | ⟨-, -, hperm⟩
  · exact ⟨entry, hkept entry hentry, rfl, Nat.le_refl _⟩
  · exact ⟨entry, hkept entry hentry, rfl, Nat.le_refl _⟩
  · rcases List.mem_cons.mp (hperm.mem_iff.mp hentry) with rfl | hold
    · exact ⟨item, hitem, rfl, Nat.le_add_right _ _⟩
    · exact ⟨entry, hkept entry hold, rfl, Nat.le_refl _⟩

/-- The queue after a timer has been called: what was in it, and the command for the timer. -/
theorem Fired.queue {stage : DaemonStage} {item : TimerListItem} {rest : List TimerListItem}
    {timer : Timer} (hfired : Fired driver stage item rest timer service next)
    (hlists : FiledLists service.round service.timers service.pxCurrentTimerList
      service.pxOverflowTimerList) :
    ∀ message ∈ next.xTimerQueue, message ∈ service.xTimerQueue ∨
      message = ⟨.startDontTrace, UInt32.ofNat item.due, item.pvOwner, item.due⟩ := by
  obtain ⟨near, far, queue, rfl, -, hcases⟩ := hfired.cases hlists
  intro message hmessage
  rcases hcases with ⟨-, -, rfl, -⟩ | ⟨-, -, -, -, rfl⟩ | ⟨rfl, -⟩
  · exact .inl hmessage
  · rcases List.mem_append.mp hmessage with hold | hnew
    · exact .inl hold
    · exact .inr (List.mem_singleton.mp hnew)
  · exact .inl hmessage

/-- A timer has been called. Assumes: the stage afterwards takes commands, or it is the switch of
the lists as before. -/
theorem Sound.fired {stage : DaemonStage} {item : TimerListItem} {rest : List TimerListItem}
    {timer : Timer} (hsound : Sound service)
    (hfired : Fired driver stage item rest timer service next)
    (hround : next.round = service.round) (hreceived : next.received = service.received)
    (hstage : StageSound next) : Sound next := by
  obtain ⟨hplaced, htimely⟩ := hsound
  have hitems := hfired.items hplaced.lists
  have hqueue := hfired.queue hplaced.lists
  have hitem : item ∈ service.items := by
    unfold TimerService.items
    rw [hfired.first]
    exact List.mem_cons_self
  have hexpired := hfired.expired
  have hlate := htimely.items item hitem
  obtain ⟨near, far, queue, rfl, hlists, -⟩ := hfired.cases hplaced.lists
  have hcommands : ∀ message ∈ queue, message.Stamped service.ticks ∧
      (message.xMessageID.CountsFrom → service.ticks < message.stamp + tickModulus) := by
    intro message hmessage
    rcases hqueue message hmessage with hold | rfl
    · exact ⟨hplaced.queue message hold,
        htimely.commands message (List.mem_append_left _ hold)⟩
    · exact ⟨fun _ ↦ ⟨rfl, Nat.le_trans hexpired hplaced.sampled⟩, fun _ ↦ hlate⟩
  refine ⟨⟨hround ▸ hlists, fun message hmessage ↦ (hcommands message hmessage).1,
    hplaced.sampled, hstage⟩, ⟨fun entry hentry ↦ ?_, fun message hmessage ↦ ?_, fun hbusy ↦ ?_⟩⟩
  · obtain ⟨old, hold, -, hle⟩ := hitems entry hentry
    exact Nat.lt_of_lt_of_le (htimely.items old hold) (Nat.add_le_add_right hle _)
  · rw [hreceived] at hmessage
    rcases List.mem_append.mp hmessage with hold | htaken
    · exact (hcommands message hold).2
    · exact htimely.commands message (List.mem_append_right _ htaken)
  · exact htimely.sampled (.inl (List.ne_nil_of_mem hitem))

/-- An expired timer has been processed. -/
theorem Sound.expired {xNextExpireTime xTimeNow : UInt32} (hsound : Sound service)
    (hstage : service.stage = .expired xNextExpireTime xTimeNow)
    (hstep : service.prvTimerTask driver = some next) : Sound next := by
  have hfacts := hsound.1.stage
  unfold StageSound at hfacts
  rw [hstage] at hfacts
  obtain ⟨item, rest, timer, hfired⟩ := prvProcessExpiredTimer_cases hsound.1 hstage hstep
  have hround := round_eq hstage nofun
  obtain ⟨near, far, queue, heq, -⟩ := hfired.cases hsound.1.lists
  refine hsound.fired hfired ?_ ?_ ?_
  · rw [hround, heq]
    rfl
  · rw [heq]
    unfold TimerService.received
    rw [hstage]
  · rw [heq]
    exact hfacts.1

/-- A round of the switch of the lists. -/
theorem Sound.switching {xTimeNow : UInt32} {received : Option DaemonTaskMessage}
    (hsound : Sound service) (hstage : service.stage = .switching xTimeNow received)
    (hstep : service.prvTimerTask driver = some next) : Sound next := by
  have hfacts := hsound.1.stage
  unfold StageSound at hfacts
  rw [hstage] at hfacts
  obtain ⟨rfl, hpositive, htaken⟩ := hfacts
  have hround : service.round = epoch tickModulus service.sampled - 1 := by
    unfold TimerService.round
    rw [hstage]
  have hreceived : service.received = received := by
    unfold TimerService.received
    rw [hstage]
  rcases prvSwitchTimerLists_cases hsound.1 hstage hstep with
    ⟨hempty, rfl⟩ | ⟨item, rest, timer, hfired⟩
  · obtain ⟨hplaced, htimely⟩ := hsound
    have hlists := hplaced.lists
    rw [hround, hempty] at hlists
    have hswapped := hlists.swap
    rw [Nat.sub_add_cancel hpositive] at hswapped
    have hitems : service.pxOverflowTimerList ++ [] = service.items := by
      unfold TimerService.items
      rw [hempty, List.append_nil, List.nil_append]
    cases received with
    | none =>
      refine ⟨⟨hswapped, hplaced.queue, hplaced.sampled, rfl⟩,
        ⟨fun entry hentry ↦ htimely.items entry (hitems ▸ hentry), htimely.queue, ?_⟩⟩
      rintro (hnonempty | hnone)
      · exact htimely.sampled (.inl (hitems ▸ hnonempty))
      · exact absurd rfl hnone
    | some message =>
      have hmessage := htaken message rfl
      refine ⟨⟨hswapped, hplaced.queue, hplaced.sampled, ⟨rfl, rfl, hmessage.stamped,
          hmessage.live, fun entry hentry ↦ hmessage.removed entry (hitems ▸ hentry)⟩⟩,
        ⟨fun entry hentry ↦ htimely.items entry (hitems ▸ hentry), ?_, ?_⟩⟩
      · have hcommands := htimely.commands
        rw [hreceived] at hcommands
        exact hcommands
      · intro _
        exact htimely.sampled (.inr (by rw [hreceived]; exact nofun))
  · have hitems := hfired.items hsound.1.lists
    obtain ⟨near, far, queue, heq, -⟩ := hfired.cases hsound.1.lists
    refine hsound.fired hfired ?_ ?_ ?_
    · rw [heq]
      rfl
    · rw [heq]
      rfl
    · rw [heq] at hitems ⊢
      unfold StageSound
      dsimp only
      rw [hstage]
      refine ⟨rfl, hpositive, fun message hmessage ↦ ?_⟩
      have hold := htaken message hmessage
      refine ⟨hold.stamped, hold.live, fun entry hentry ↦ ?_⟩
      obtain ⟨other, hother, hsame, -⟩ := hitems entry hentry
      rw [hsame]
      exact hold.removed other hother

/-- A command has been executed. Assumes: the lists are filed afterwards, and what is new in them
and in the queue is on time. -/
theorem Sound.finish {xTimeNow : UInt32} {message : DaemonTaskMessage} (hsound : Sound service)
    (hstage : service.stage = .execute xTimeNow message)
    {timers : TimerHandle → Option Timer} {near far : List TimerListItem}
    {queue : List DaemonTaskMessage} {calls : List Call}
    (hlists : FiledLists service.round timers near far)
    (hitems : ∀ entry ∈ near ++ far,
      entry ∈ service.items ∨ service.ticks < entry.due + tickModulus)
    (hqueue : ∀ other ∈ queue, other ∈ service.xTimerQueue ∨ other.Stamped service.ticks ∧
      (other.xMessageID.CountsFrom → service.ticks < other.stamp + tickModulus)) :
    Sound { service with
      timers := timers
      pxCurrentTimerList := near
      pxOverflowTimerList := far
      xTimerQueue := queue
      calls := calls
      stage := .commands } := by
  obtain ⟨hplaced, htimely⟩ := hsound
  have hfacts := hplaced.stage
  unfold StageSound at hfacts
  rw [hstage] at hfacts
  have hbusy : service.received ≠ none := by
    unfold TimerService.received
    rw [hstage]
    exact nofun
  rw [round_eq hstage nofun] at hlists
  refine ⟨⟨hlists, fun other hother ↦ ?_, hplaced.sampled, hfacts.1⟩,
    ⟨fun entry hentry ↦ ?_, fun other hother ↦ ?_, fun _ ↦ htimely.sampled (.inr hbusy)⟩⟩
  · rcases hqueue other hother with hold | hnew
    · exact hplaced.queue other hold
    · exact hnew.1
  · rcases hitems entry hentry with hold | hnew
    · exact htimely.items entry hold
    · exact hnew
  · rcases List.mem_append.mp hother with hmem | hnone
    · rcases hqueue other hmem with hold | hnew
      · exact htimely.commands other (List.mem_append_left _ hold)
      · exact hnew.2
    · cases hnone

/-- The lists after a timer has been changed or deleted. Assumes: it is in neither of them. -/
theorem FiledLists.update {round : ℕ} {timers : TimerHandle → Option Timer}
    {near far : List TimerListItem} {handle : TimerHandle}
    (hlists : FiledLists round timers near far)
    (hremoved : ∀ entry ∈ near ++ far, entry.pvOwner ≠ handle) (timer : Option Timer) :
    FiledLists round (Function.update timers handle timer) near far := by
  refine ⟨hlists.current, hlists.overflow, hlists.owners, fun entry hentry ↦ ?_⟩
  rw [Function.update_of_ne (hremoved entry hentry)]
  exact hlists.live entry hentry

/-- The command that is executed counts from a tick less than a round ago. -/
theorem Sound.recent {xTimeNow : UInt32} {message : DaemonTaskMessage} (hsound : Sound service)
    (hstage : service.stage = .execute xTimeNow message)
    (hcommand : message.xMessageID.CountsFrom) :
    service.ticks < message.stamp + tickModulus := by
  refine hsound.2.commands message (List.mem_append_right _ ?_) hcommand
  unfold TimerService.received
  rw [hstage]
  exact List.mem_singleton_self message

/-- A command has been executed. -/
theorem Sound.execute {xTimeNow : UInt32} {message : DaemonTaskMessage} (hsound : Sound service)
    (hstage : service.stage = .execute xTimeNow message)
    (hstep : service.prvTimerTask driver = some next) : Sound next := by
  have hplaced := hsound.1
  have htimely := hsound.2
  have hfacts := hplaced.stage
  unfold StageSound at hfacts
  rw [hstage] at hfacts
  obtain ⟨-, -, htaken⟩ := hfacts
  have hreceived : service.received = some message := by
    unfold TimerService.received
    rw [hstage]
  have hlate := hsound.recent hstage
  have hrecent : service.ticks < service.sampled + tickModulus :=
    htimely.sampled (.inr (by rw [hreceived]; exact nofun))
  have hlists := hplaced.lists
  have hsame : ∀ other ∈ service.xTimerQueue, other ∈ service.xTimerQueue ∨
      other.Stamped service.ticks ∧
        (other.xMessageID.CountsFrom → service.ticks < other.stamp + tickModulus) :=
    fun _ hother ↦ .inl hother
  obtain ⟨timer, executed, hlive, hexecuted, rfl⟩ := executeCommand_cases hplaced hstage
    (fun hcounts ↦ Nat.lt_of_le_of_lt hplaced.sampled (hlate hcounts)) hstep
  cases hexecuted with
  | started hcommand hahead hinserted =>
    obtain ⟨near, far, rfl, hfiled, hperm⟩ :=
      hinserted.filed hlists rfl htaken.live htaken.removed
    refine hsound.finish hstage hfiled (fun entry hentry ↦ ?_) hsame
    rcases List.mem_cons.mp (hperm.mem_iff.mp hentry) with rfl | hold
    · exact .inr (Nat.lt_of_lt_of_le (hlate hcommand)
        (Nat.add_le_add_right (Nat.le_add_right _ _) _))
    · exact .inl hold
  | elapsed =>
    exact hsound.finish hstage hlists (fun entry hentry ↦ .inl hentry) hsame
  | again hcommand hpassed =>
    rcases xTimerGenericCommand_cases
      ⟨.startDontTrace, UInt32.ofNat (message.stamp + timer.xTimerPeriodInTicks.toNat),
        message.pxTimer, message.stamp + timer.xTimerPeriodInTicks.toNat⟩
      (service.callback message.pxTimer (message.stamp + timer.xTimerPeriodInTicks.toNat)) with
      ⟨-, heq⟩ | ⟨-, heq⟩
    · rw [heq]
      refine hsound.finish hstage hlists (fun entry hentry ↦ .inl hentry) fun other hother ↦ ?_
      rcases List.mem_append.mp hother with hold | hnew
      · exact .inl hold
      · rw [List.mem_singleton.mp hnew]
        refine .inr ⟨fun _ ↦ ⟨rfl, Nat.le_trans hpassed hplaced.sampled⟩, fun _ ↦ ?_⟩
        exact Nat.lt_of_lt_of_le (hlate hcommand)
          (Nat.add_le_add_right (Nat.le_add_right _ _) _)
    · rw [heq]
      exact hsound.finish hstage hlists (fun entry hentry ↦ .inl hentry) hsame
  | stopped => exact hsound.finish hstage hlists (fun entry hentry ↦ .inl hentry) hsame
  | changed hcommand hperiod hinserted =>
    have hself : (Function.update service.timers message.pxTimer
        (some { timer with xTimerPeriodInTicks := message.xMessageValue })
          message.pxTimer).isSome = true := by
      rw [Function.update_self]
      rfl
    obtain ⟨near, far, rfl, hfiled, hperm⟩ := hinserted.filed
      (hlists.update htaken.removed _) rfl hself htaken.removed
    refine hsound.finish hstage hfiled (fun entry hentry ↦ ?_) hsame
    rcases List.mem_cons.mp (hperm.mem_iff.mp hentry) with rfl | hold
    · exact .inr (Nat.lt_of_lt_of_le hrecent
        (Nat.add_le_add_right (Nat.le_add_right _ _) _))
    · exact .inl hold
  | cleared =>
    exact hsound.finish hstage (hlists.update htaken.removed _) (fun entry hentry ↦ .inl hentry)
      hsame
  | deleted =>
    exact hsound.finish hstage (hlists.update htaken.removed none)
      (fun entry hentry ↦ .inl hentry) hsame

/-- A step of the service task keeps the service in place and on time. -/
theorem Sound.prvTimerTask (hsound : Sound service)
    (hstep : service.prvTimerTask driver = some next) : Sound next := by
  cases hstage : service.stage with
  | query =>
    unfold TimerService.prvTimerTask at hstep
    rw [hstage] at hstep
    exact Option.some.inj hstep ▸ hsound.query hstage
  | assess xNextExpireTime xListWasEmpty =>
    unfold TimerService.prvTimerTask at hstep
    rw [hstage] at hstep
    exact Option.some.inj hstep ▸ hsound.assess hstage
  | expired => exact hsound.expired hstage hstep
  | switching => exact hsound.switching hstage hstep
  | blocked =>
    unfold TimerService.prvTimerTask at hstep
    rw [hstage] at hstep
    dsimp only at hstep
    split_ifs at hstep
    exact Option.some.inj hstep ▸ hsound.wake hstage
  | commands =>
    unfold TimerService.prvTimerTask at hstep
    rw [hstage] at hstep
    exact Option.some.inj hstep ▸ hsound.receive hstage
  | execute => exact hsound.execute hstage hstep

/-! ### Runs -/

variable {timers : TimerHandle → Option Timer} {started : List TimerHandle}

/-- The starts before the scheduler put commands that count from tick 0 into the queue. -/
theorem initial_eq (driver : ListDriver) (timers : TimerHandle → Option Timer)
    (started : List TimerHandle) :
    (timerService driver timers started).initial = { xTimerCreateTimerTask timers with
      xTimerQueue := (started.take configTimerQueueLength).map fun pxTimer ↦
        ⟨.start, 0, pxTimer, 0⟩ } := by
  have hfold : ∀ queue : List DaemonTaskMessage, queue.length ≤ configTimerQueueLength →
      started.foldl (fun service pxTimer ↦ (xTimerStart pxTimer service).2)
        { xTimerCreateTimerTask timers with xTimerQueue := queue } =
      { xTimerCreateTimerTask timers with
        xTimerQueue := queue ++ (started.take (configTimerQueueLength - queue.length)).map
          fun pxTimer ↦ ⟨.start, 0, pxTimer, 0⟩ } := by
    induction started with
    | nil =>
      intro queue _
      rw [List.take_nil, List.map_nil, List.append_nil]
      rfl
    | cons handle rest ih =>
      intro queue hlength
      rw [List.foldl_cons]
      by_cases hroom : queue.length < configTimerQueueLength
      · have hstart : (xTimerStart handle
            { xTimerCreateTimerTask timers with xTimerQueue := queue }).2 =
            { xTimerCreateTimerTask timers with
              xTimerQueue := queue ++ [⟨.start, 0, handle, 0⟩] } := by
          unfold xTimerStart TimerService.xTimerGenericCommand
          rw [if_pos hroom]
          rfl
        have hleft : configTimerQueueLength - queue.length =
            configTimerQueueLength - (queue ++ [(⟨.start, 0, handle, 0⟩ :
              DaemonTaskMessage)]).length + 1 := by
          rw [List.length_append, List.length_singleton]
          omega
        rw [hstart, ih _ (by rw [List.length_append]; exact hroom), hleft, List.take_succ_cons,
          List.map_cons, List.append_assoc, List.singleton_append]
      · have hstart : (xTimerStart handle
            { xTimerCreateTimerTask timers with xTimerQueue := queue }).2 =
            { xTimerCreateTimerTask timers with xTimerQueue := queue } := by
          unfold xTimerStart TimerService.xTimerGenericCommand
          rw [if_neg hroom]
        have hleft : configTimerQueueLength - queue.length = 0 :=
          Nat.sub_eq_zero_of_le (Nat.not_lt.mp hroom)
        rw [hstart, ih queue hlength, hleft, List.take_zero, List.take_zero]
  exact hfold [] (Nat.zero_le _)

/-- Before the scheduler is started the service is in place and on time. -/
theorem sound_initial : Sound (timerService driver timers started).initial := by
  rw [initial_eq]
  have hqueue : ∀ message ∈ (started.take configTimerQueueLength).map
      (fun pxTimer ↦ (⟨.start, 0, pxTimer, 0⟩ : DaemonTaskMessage)),
      message.xMessageValue = 0 ∧ message.stamp = 0 := by
    intro message hmessage
    obtain ⟨handle, -, rfl⟩ := List.mem_map.mp hmessage
    exact ⟨rfl, rfl⟩
  refine ⟨⟨⟨filed_nil _, filed_nil _, List.nodup_nil, nofun⟩, fun message hmessage _ ↦ ?_,
    Nat.le_refl 0, rfl⟩, ⟨nofun, fun message hmessage _ ↦ ?_, ?_⟩⟩
  · rw [(hqueue message hmessage).1, (hqueue message hmessage).2]
    exact ⟨rfl, Nat.le_refl 0⟩
  · rw [(hqueue message (by
      rcases List.mem_append.mp hmessage with hold | hnone
      · exact hold
      · cases hnone)).2]
    exact tickModulus_pos
  · rintro (hitems | hnone)
    · exact absurd rfl hitems
    · exact absurd rfl hnone

/-- An event of a punctual run keeps the service in place and on time. -/
theorem Sound.step {event : TimerEvent} (hsound : Sound service) (hallowed : Punctual service event)
    (hstep : (timerService driver timers started).step service event = some next) :
    Sound next := by
  cases event with
  | advance ticks =>
    cases hstep
    exact ⟨hsound.1.advance ticks, hallowed⟩
  | send command handle value waited =>
    change (if _ then _ else _) = some next at hstep
    split_ifs at hstep with hsends
    obtain ⟨-, hwaited, hroom⟩ := hsends
    cases hstep
    have hstamped := stamped_sentMessage command handle value waited service.ticks
    have hrecent : (sentMessage command handle value waited
        service.ticks).xMessageID.CountsFrom →
        service.ticks < (sentMessage command handle value waited service.ticks).stamp +
          tickModulus := by
      unfold sentMessage
      intro hcounts
      split_ifs at hcounts ⊢ with hcommand
      · have hless := hallowed hcommand
        dsimp only
        omega
      · exact absurd hcounts hcommand
    unfold TimerService.xTimerGenericCommand
    rw [if_pos hroom]
    exact ⟨hsound.1.send hstamped, hsound.2.send hrecent⟩
  | daemon => exact hsound.prvTimerTask hstep

/-- The service is in place and on time in every state of a punctual run. -/
theorem sound_of_reachable
    (hreach : (timerService driver timers started).ReachableUnder Punctual service) :
    Sound service :=
  hreach.invariant sound_initial fun _ _ _ hsound hallowed hstep ↦ hsound.step hallowed hstep

/-- A timer that reloads itself after 3000000000 ticks, and one that expires once after 2000000000.
-/
def longTimers : TimerHandle → Option Timer
  | 0 => xTimerCreate 3000000000 true
  | 1 => xTimerCreate 2000000000 false
  | _ => none

theorem longTimers_zero : longTimers 0 = some ⟨3000000000, true⟩ := by decide +kernel

theorem longTimers_one : longTimers 1 = some ⟨2000000000, false⟩ := by decide +kernel

/-- Both timers expire once, and the second one is reset by a task that had to wait for 5 ticks:
they expire again after the tick count has wrapped. -/
theorem exists_longTimers_reset : ∃ service : TimerService,
    (timerService orderedLists longTimers [0, 1]).ReachableUnder Punctual service ∧
      service.stage = .blocked 3000000005 1294967291 false ∧
      service.pxCurrentTimerList = [] ∧
      service.pxOverflowTimerList = [⟨705032704, 1, 5000000000⟩, ⟨1705032704, 0, 6000000000⟩] := by
  have hrun : (((timerService orderedLists longTimers [0, 1]).restrict Punctual).run
      (timerService orderedLists longTimers [0, 1]).initial
      [List.replicate 10 .daemon, [.advance 2000000000], List.replicate 8 .daemon,
        [.advance 1000000000], List.replicate 8 .daemon, [.advance 5, .send .reset 1 0 5],
        List.replicate 6 .daemon].flatten).any (fun service ↦
      service.stage = .blocked 3000000005 1294967291 false ∧
        service.pxCurrentTimerList = [] ∧ service.pxOverflowTimerList =
          [⟨705032704, 1, 5000000000⟩, ⟨1705032704, 0, 6000000000⟩]) = true := by
    decide +kernel
  obtain ⟨service, hservice, hfinal⟩ := (Option.any_eq_true _ _).mp hrun
  exact ⟨service, System.reachableUnder_of_run hservice, of_decide_eq_true hfinal⟩

end Apes.SoftwareTimers

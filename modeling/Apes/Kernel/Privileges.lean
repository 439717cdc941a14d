import Apes.Kernel.Credentials

/-!
# What a task can make of its ids

`Ids.Within` says which ids a task without the capability can give itself: each of the real, the
effective and the saved id is one of the three that it held, and the filesystem id is one of the
three new ones unless nothing has changed. It is a preorder, and every call stays within it.
`reachable_unprivileged_iff` proves that it is exact: whatever the sequence of calls, the ids within
the first ones, and no others, are reached.

`granted_of_run` is about runs in which some calls have the capability. Every id in the end is one
of the first four, or a capable call has asked for it.

`dropped_for_good` is what the comments on `setreuid` and `setuid` promise: once a call has set all
the user ids to one id, no sequence of calls without the capability changes any of them.
`swap_swap` and `swap_swap_gids` are the other promise, that the real and the effective id can be
exchanged and exchanged back, and `setresuid_getresuid` and `setresgid_getresgid` say that ids that
are read can be set again.

Each of these rests on `Task.call_cred`, the one statement of what a call can do to the credentials.
-/

set_option autoImplicit false
set_option relaxedAutoImplicit false

namespace Apes.Kernel

open Library

/-! ### One rule -/

section Rules

variable {mapping : IdMapping} {answers : IdAnswers} {old new : Ids}

/-- A capable call has asked for an id, and the id is valid. -/
def IdMapping.Granted (mapping : IdMapping) (answers : IdAnswers) (arguments : List UInt32)
    (kid : UInt32) : Prop :=
  answers.capable = true ∧ ∃ id ∈ arguments, mapping.make id = kid ∧ kid ≠ invalidId

/-- An id was held before or has been granted. -/
def IdMapping.Available (mapping : IdMapping) (answers : IdAnswers) (arguments : List UInt32)
    (old : Ids) (kid : UInt32) : Prop :=
  old.Held kid ∨ mapping.Granted answers arguments kid

/-- What a rule makes of the ids: each of the three was available, and the filesystem id is one of
the three or has been granted. -/
structure IdMapping.Changes (mapping : IdMapping) (answers : IdAnswers) (arguments : List UInt32)
    (old new : Ids) : Prop where
  held : ∀ kid, new.Held kid → mapping.Available answers arguments old kid
  fsid : new.Held new.fsid ∨ mapping.Granted answers arguments new.fsid

/-- A property of an id that is set or kept. -/
theorem getD_of_forall {property : UInt32 → Prop} {wanted : Option UInt32} {kid : UInt32}
    (hwanted : ∀ new ∈ wanted, property new) (hkid : property kid) :
    property (wanted.getD kid) := by
  cases wanted with
  | none => exact hkid
  | some new => exact hwanted new rfl

/-- An id that a capable call may set has been granted. -/
theorem granted_of_wanted {arguments : List UInt32} {id kid : UInt32}
    (hmember : id ∈ arguments) (hcheck : mapping.checkArgument id = .ok ())
    (hwanted : kid ∈ mapping.wanted id) (hcapable : answers.capable = true) :
    mapping.Granted answers arguments kid := by
  have hvalid := require_eq_ok_iff.mp hcheck
  unfold IdMapping.wanted at hwanted
  split_ifs at hwanted with hunchanged
  · exact absurd hwanted (Option.not_mem_none kid)
  · have hkid : mapping.make id = kid := Option.some.inj hwanted
    exact ⟨hcapable, id, hmember, hkid, hkid ▸ hvalid hunchanged⟩

/-- What `setreuid` and `setregid` make of the ids. -/
theorem IdMapping.Changes.setre {rid eid : UInt32}
    (hok : mapping.setre answers old rid eid = .ok new) :
    mapping.Changes answers [rid, eid] old new := by
  unfold IdMapping.setre Ids.setre prepareCreds at hok
  obtain ⟨⟨⟩, hrid, hok⟩ := seq_eq_ok_iff.mp hok
  obtain ⟨⟨⟩, heid, hok⟩ := seq_eq_ok_iff.mp hok
  obtain ⟨-, hok⟩ := require_seq_eq_ok_iff.mp hok
  obtain ⟨hreal, hok⟩ := require_seq_eq_ok_iff.mp hok
  obtain ⟨heffective, hok⟩ := require_seq_eq_ok_iff.mp hok
  obtain rfl := Except.ok.inj hok
  have hnewReal : mapping.Available answers [rid, eid] old ((mapping.wanted rid).getD old.id) := by
    refine getD_of_forall (fun kid hkid ↦ ?_) (Or.inl (Or.inl rfl))
    obtain hsame | hsame | hcapable := hreal kid hkid
    · exact Or.inl (Or.inl hsame.symm)
    · exact Or.inl (Or.inr (Or.inl hsame.symm))
    · exact Or.inr (granted_of_wanted (by simp) hrid hkid hcapable)
  have hnewEffective :
      mapping.Available answers [rid, eid] old ((mapping.wanted eid).getD old.eid) := by
    refine getD_of_forall (fun kid hkid ↦ ?_) (Or.inl (Or.inr (Or.inl rfl)))
    obtain hheld | hcapable := heffective kid hkid
    · exact Or.inl hheld
    · exact Or.inr (granted_of_wanted (by simp) heid hkid hcapable)
  refine ⟨?_, Or.inl (Or.inr (Or.inl rfl))⟩
  rintro kid (rfl | rfl | rfl)
  · exact hnewReal
  · exact hnewEffective
  · dsimp only
    split_ifs
    · exact hnewEffective
    · exact Or.inl (Or.inr (Or.inr rfl))

/-- What `setuid` and `setgid` make of the ids. -/
theorem IdMapping.Changes.set {id : UInt32} (hok : mapping.set answers old id = .ok new) :
    mapping.Changes answers [id] old new := by
  unfold IdMapping.set Ids.set prepareCreds at hok
  obtain ⟨hvalid, hok⟩ := require_seq_eq_ok_iff.mp hok
  obtain ⟨-, hok⟩ := require_seq_eq_ok_iff.mp hok
  obtain ⟨hallowed, hok⟩ := require_seq_eq_ok_iff.mp hok
  obtain rfl := Except.ok.inj hok
  split_ifs with hcapable
  · have hgranted : mapping.Granted answers [id] (mapping.make id) :=
      ⟨hcapable, id, List.mem_singleton_self id, rfl, hvalid⟩
    refine ⟨?_, Or.inl (Or.inl rfl)⟩
    rintro kid (rfl | rfl | rfl) <;> exact Or.inr hgranted
  · refine ⟨?_, Or.inl (Or.inr (Or.inl rfl))⟩
    rintro kid (rfl | rfl | rfl)
    · exact Or.inl (Or.inl rfl)
    · obtain hcapable' | hreal | hsaved := hallowed
      · exact absurd hcapable' hcapable
      · exact Or.inl (Or.inl hreal)
      · exact Or.inl (Or.inr (Or.inr hsaved))
    · exact Or.inl (Or.inr (Or.inr rfl))

/-- What `setresuid` and `setresgid` make of the ids. -/
theorem IdMapping.Changes.setres {rid eid sid : UInt32}
    (hok : mapping.setres answers old rid eid sid = .ok new) :
    mapping.Changes answers [rid, eid, sid] old new := by
  unfold IdMapping.setres Ids.setres prepareCreds at hok
  obtain ⟨⟨⟩, hrid, hok⟩ := seq_eq_ok_iff.mp hok
  obtain ⟨⟨⟩, heid, hok⟩ := seq_eq_ok_iff.mp hok
  obtain ⟨⟨⟩, hsid, hok⟩ := seq_eq_ok_iff.mp hok
  obtain ⟨-, hok⟩ := require_seq_eq_ok_iff.mp hok
  obtain ⟨hreal, hok⟩ := require_seq_eq_ok_iff.mp hok
  obtain ⟨heffective, hok⟩ := require_seq_eq_ok_iff.mp hok
  obtain ⟨hsaved, hok⟩ := require_seq_eq_ok_iff.mp hok
  obtain rfl := Except.ok.inj hok
  have hset : ∀ (id : UInt32), id ∈ [rid, eid, sid] → mapping.checkArgument id = .ok () →
      (answers.capable = true ∨ ∀ kid ∈ mapping.wanted id, old.Held kid) →
      ∀ kid ∈ mapping.wanted id, mapping.Available answers [rid, eid, sid] old kid := by
    intro id hmember hcheck hallowed kid hkid
    obtain hcapable | hheld := hallowed
    · exact Or.inr (granted_of_wanted hmember hcheck hkid hcapable)
    · exact Or.inl (hheld kid hkid)
  refine ⟨?_, Or.inl (Or.inr (Or.inl rfl))⟩
  rintro kid (rfl | rfl | rfl)
  · exact getD_of_forall (hset rid (by simp) hrid hreal) (Or.inl (Or.inl rfl))
  · exact getD_of_forall (hset eid (by simp) heid heffective) (Or.inl (Or.inr (Or.inl rfl)))
  · exact getD_of_forall (hset sid (by simp) hsid hsaved) (Or.inl (Or.inr (Or.inr rfl)))

/-- What `setfsuid` and `setfsgid` make of the ids. -/
theorem IdMapping.Changes.setfs {id : UInt32} (hsome : mapping.setfs answers old id = some new) :
    mapping.Changes answers [id] old new := by
  unfold IdMapping.setfs at hsome
  split_ifs at hsome with hallowed
  obtain ⟨hvalid, -, hallowed, hother⟩ := hallowed
  obtain rfl := Option.some.inj hsome
  refine ⟨fun kid hheld ↦ Or.inl hheld, ?_⟩
  obtain hheld | hsame | hcapable := hallowed
  · exact Or.inl hheld
  · exact absurd hsame hother
  · exact Or.inr ⟨hcapable, id, List.mem_singleton_self id, rfl, hvalid⟩

/-- `setfsuid` and `setfsgid` leave the real id. -/
theorem IdMapping.setfs_id {id : UInt32} (hsome : mapping.setfs answers old id = some new) :
    new.id = old.id := by
  unfold IdMapping.setfs at hsome
  split_ifs at hsome
  exact (Option.some.inj hsome) ▸ rfl

end Rules

/-! ### One call -/

section Calls

variable {ns : Namespace} {task : Task} {answers : IdAnswers}

/-- The arguments of a call that sets user ids. -/
def IdCall.uids : IdCall → List UInt32
  | .setreuid ruid euid => [ruid, euid]
  | .setuid uid => [uid]
  | .setresuid ruid euid suid => [ruid, euid, suid]
  | .setfsuid uid => [uid]
  | _ => []

/-- The arguments of a call that sets group ids. -/
def IdCall.gids : IdCall → List UInt32
  | .setregid rgid egid => [rgid, egid]
  | .setgid gid => [gid]
  | .setresgid rgid egid sgid => [rgid, egid, sgid]
  | .setfsgid gid => [gid]
  | _ => []

/-- What a call makes of the credentials: nothing, a change of the user ids with the user that is
charged following the real uid, or a change of the group ids. -/
inductive Cred.Changes (ns : Namespace) (event : IdEvent) (old new : Cred) : Prop
  | none (hsame : new = old)
  | uids (hchanges : ns.uid.Changes event.answers event.call.uids old.uids new.uids)
      (hgids : new.gids = old.gids)
      (huser : new.user = if new.uids.id = old.uids.id then old.user else new.uids.id)
  | gids (hchanges : ns.gid.Changes event.answers event.call.gids old.gids new.gids)
      (huids : new.uids = old.uids) (huser : new.user = old.user)

/-- A change of the user ids is refused or made. -/
theorem Task.commitUids_cases (task : Task) (answers : IdAnswers) (reply : Except Errno Ids) :
    ((∃ errno, (task.commitUids answers reply).1 = .error errno) ∧
      (task.commitUids answers reply).2.cred = task.cred) ∨
    ∃ uids, reply = .ok uids ∧ (task.commitUids answers reply).1 = .ok () ∧
      (task.commitUids answers reply).2.cred = { task.cred with
        uids, user := if uids.id = task.cred.uids.id then task.cred.user else uids.id } := by
  unfold Task.commitUids Task.userFor setUser
  cases reply with
  | error errno => exact Or.inl ⟨⟨errno, rfl⟩, rfl⟩
  | ok uids =>
    dsimp only
    split_ifs with hsame
    · cases answers.fixSetuid with
      | some errno => exact Or.inl ⟨⟨errno, rfl⟩, rfl⟩
      | none => exact Or.inr ⟨uids, rfl, rfl, by simp only [if_pos hsame]⟩
    · cases answers.newUser with
      | none => exact Or.inl ⟨⟨.eagain, rfl⟩, rfl⟩
      | some processes =>
        cases answers.fixSetuid with
        | some errno => exact Or.inl ⟨⟨errno, rfl⟩, rfl⟩
        | none => exact Or.inr ⟨uids, rfl, rfl, by simp only [if_neg hsame]⟩

/-- A call that sets user ids makes the change of its rule or none. -/
theorem Task.commitUids_cred {event : IdEvent} {reply : Except Errno Ids}
    (hrule : ∀ uids, reply = .ok uids →
      ns.uid.Changes event.answers event.call.uids task.cred.uids uids) :
    task.cred.Changes ns event (task.commitUids event.answers reply).2.cred := by
  obtain ⟨-, hsame⟩ | ⟨uids, hreply, -, hcred⟩ := task.commitUids_cases event.answers reply
  · exact .none hsame
  · rw [hcred]
    exact .uids (hrule uids hreply) rfl rfl

/-- A call that sets group ids makes the change of its rule or none. -/
theorem Task.commitGids_cred {event : IdEvent} {reply : Except Errno Ids}
    (hrule : ∀ gids, reply = .ok gids →
      ns.gid.Changes event.answers event.call.gids task.cred.gids gids) :
    task.cred.Changes ns event (task.commitGids reply).2.cred := by
  cases reply with
  | error errno => exact .none rfl
  | ok gids => exact .gids (hrule gids rfl) rfl rfl

/-- What any call makes of the credentials. -/
theorem Task.call_cred (event : IdEvent) :
    task.cred.Changes ns event (task.call ns event.answers event.call).2.cred := by
  obtain ⟨call, answers⟩ := event
  cases call with
  | setreuid ruid euid => exact Task.commitUids_cred fun uids hok ↦ .setre hok
  | setuid uid => exact Task.commitUids_cred fun uids hok ↦ .set hok
  | setresuid ruid euid suid => exact Task.commitUids_cred fun uids hok ↦ .setres hok
  | setregid rgid egid => exact Task.commitGids_cred fun gids hok ↦ .setre hok
  | setgid gid => exact Task.commitGids_cred fun gids hok ↦ .set hok
  | setresgid rgid egid sgid => exact Task.commitGids_cred fun gids hok ↦ .setres hok
  | setfsuid uid =>
    change task.cred.Changes ns _ (setfsuid ns answers task uid).2.cred
    unfold setfsuid
    cases hnew : ns.uid.setfs answers task.cred.uids uid with
    | none => exact .none rfl
    | some uids =>
      have hreal : uids.id = task.cred.uids.id := IdMapping.setfs_id hnew
      cases answers.fixSetuid with
      | some errno => exact .none rfl
      | none => exact .uids (.setfs hnew) rfl (if_pos hreal).symm
  | setfsgid gid =>
    change task.cred.Changes ns _ (setfsgid ns answers task gid).2.cred
    unfold setfsgid
    cases hnew : ns.gid.setfs answers task.cred.gids gid with
    | none => exact .none rfl
    | some gids => exact .gids (.setfs hnew) rfl rfl

end Calls

/-! ### Runs without the capability -/

/-- The ids that a task can give itself without the capability. -/
structure Ids.Within (new old : Ids) : Prop where
  held : ∀ kid, new.Held kid → old.Held kid
  fsid : new = old ∨ new.Held new.fsid

theorem Ids.Within.refl (ids : Ids) : ids.Within ids := ⟨fun _ hheld ↦ hheld, Or.inl rfl⟩

theorem Ids.Within.trans {new middle old : Ids} (hlast : new.Within middle)
    (hfirst : middle.Within old) : new.Within old := by
  refine ⟨fun kid hheld ↦ hfirst.held kid (hlast.held kid hheld), ?_⟩
  obtain rfl | hheld := hlast.fsid
  · exact hfirst.fsid
  · exact Or.inr hheld

/-- A rule without the capability stays within the ids before. -/
theorem IdMapping.Changes.within {mapping : IdMapping} {answers : IdAnswers}
    {arguments : List UInt32} {old new : Ids}
    (hchanges : mapping.Changes answers arguments old new)
    (hunprivileged : answers.capable = false) : new.Within old := by
  have hnone : ∀ kid, ¬ mapping.Granted answers arguments kid := by
    rintro kid ⟨hcapable, -⟩
    exact absurd hcapable (by simp [hunprivileged])
  constructor
  · intro kid hheld
    exact (hchanges.held kid hheld).resolve_right (hnone kid)
  · exact Or.inr (hchanges.fsid.resolve_right (hnone new.fsid))

section Runs

variable {ns : Namespace} {task : Task}

/-- A call without the capability stays within the ids before. -/
theorem Cred.Changes.within {event : IdEvent} {old new : Cred} (hchanges : old.Changes ns event new)
    (hunprivileged : event.answers.capable = false) :
    new.uids.Within old.uids ∧ new.gids.Within old.gids := by
  cases hchanges with
  | none hsame =>
    subst hsame
    exact ⟨.refl _, .refl _⟩
  | uids hchanges hgids huser =>
    exact ⟨hchanges.within hunprivileged, hgids ▸ .refl _⟩
  | gids hchanges huids huser =>
    exact ⟨huids ▸ .refl _, hchanges.within hunprivileged⟩

/-- A call keeps the user that is charged the real uid. -/
theorem Cred.Changes.user {event : IdEvent} {old new : Cred} (hchanges : old.Changes ns event new)
    (huser : old.user = old.uids.id) : new.user = new.uids.id := by
  cases hchanges with
  | none hsame => exact hsame ▸ huser
  | uids hchanges hgids hnew =>
    rw [hnew]
    split_ifs with hsame
    · exact huser.trans hsame.symm
    · rfl
  | gids hchanges huids hnew => rw [hnew, huids, huser]

/-- In every run the user that is charged stays the real uid. -/
theorem user_of_reachable (huser : task.cred.user = task.cred.uids.id) {state : Task}
    (hreach : (credentials ns task).Reachable state) : state.cred.user = state.cred.uids.id := by
  refine hreach.invariant huser ?_
  intro state event next hstate hstep
  obtain rfl := Option.some.inj hstep
  exact (Task.call_cred event).user hstate

/-- A run without the capability stays within the first ids. -/
theorem within_of_unprivileged {state : Task}
    (hreach : (credentials ns task).ReachableUnder Unprivileged state) :
    state.cred.uids.Within task.cred.uids ∧ state.cred.gids.Within task.cred.gids := by
  refine hreach.invariant ⟨.refl _, .refl _⟩ ?_
  rintro state event next ⟨huids, hgids⟩ hunprivileged hstep
  obtain rfl := Option.some.inj hstep
  have hchanges : state.cred.Changes ns event (state.call ns event.answers event.call).2.cred :=
    Task.call_cred event
  obtain ⟨hnewUids, hnewGids⟩ := hchanges.within hunprivileged
  exact ⟨hnewUids.trans huids, hnewGids.trans hgids⟩

end Runs

/-! ### Every id within the first ones is reached -/

/-- An id of the namespace is mapped to the id. -/
def IdMapping.Maps (mapping : IdMapping) (kid : UInt32) : Prop :=
  ∃ id, id ≠ unchanged ∧ mapping.make id = kid ∧ kid ≠ invalidId

section Reaches

variable {mapping : IdMapping} {answers : IdAnswers} {old new : Ids}

/-- An argument asks for an id that is held. -/
structure IdMapping.Names (mapping : IdMapping) (old : Ids) (id kid : UInt32) : Prop where
  asks : id ≠ unchanged
  make : mapping.make id = kid
  valid : kid ≠ invalidId
  held : old.Held kid

/-- Every id within the ids held has a name. -/
theorem exists_names (hmaps : ∀ kid, old.Held kid → mapping.Maps kid) {kid : UInt32}
    (hheld : old.Held kid) : ∃ id, mapping.Names old id kid := by
  obtain ⟨id, hid, hmake, hvalid⟩ := hmaps kid hheld
  exact ⟨id, hid, hmake, hvalid, hheld⟩

/-- The check of an argument that names an id. -/
theorem IdMapping.Names.check {id kid : UInt32} (hnames : mapping.Names old id kid) :
    id ≠ unchanged → mapping.make id ≠ invalidId :=
  fun _ ↦ hnames.make ▸ hnames.valid

/-- What an argument that names an id asks for. -/
theorem IdMapping.Names.wanted {id kid : UInt32} (hnames : mapping.Names old id kid) :
    mapping.wanted id = some kid := by
  unfold IdMapping.wanted
  rw [if_neg hnames.asks, hnames.make]

/-- An id that is held may be set. -/
theorem IdMapping.Names.allowed {id kid : UInt32} (hnames : mapping.Names old id kid) :
    answers.capable = true ∨ ∀ wanted ∈ some kid, old.Held wanted := by
  refine Or.inr fun wanted hwanted ↦ ?_
  exact Option.some.inj hwanted ▸ hnames.held

/-- Three ids that are held can be set. -/
theorem IdMapping.setres_of_names {rid eid sid : UInt32} (hprepared : answers.prepared = true)
    (hrid : mapping.Names old rid new.id) (heid : mapping.Names old eid new.eid)
    (hsid : mapping.Names old sid new.sid) :
    mapping.setres answers old rid eid sid = .ok { new with fsid := new.eid } := by
  unfold IdMapping.setres Ids.setres IdMapping.checkArgument prepareCreds
  rw [hrid.wanted, heid.wanted, hsid.wanted, require_seq_of hrid.check, require_seq_of heid.check,
    require_seq_of hsid.check, require_seq_of hprepared, require_seq_of hrid.allowed,
    require_seq_of heid.allowed, require_seq_of hsid.allowed]
  rfl

/-- The real id can be set to the real or the effective one, and the effective id to one that is
held; the saved id follows. -/
theorem IdMapping.setre_of_names {rid eid krid keid : UInt32} (hprepared : answers.prepared = true)
    (hrid : mapping.Names old rid krid) (hreal : krid = old.id ∨ krid = old.eid)
    (heid : mapping.Names old eid keid) :
    mapping.setre answers old rid eid = .ok ⟨krid, keid, keid, keid⟩ := by
  have hallowed : ∀ wanted ∈ some krid,
      old.id = wanted ∨ old.eid = wanted ∨ answers.capable = true := by
    rintro wanted ⟨⟩
    exact hreal.imp Eq.symm fun hsame ↦ Or.inl hsame.symm
  have hheld : ∀ wanted ∈ some keid, old.Held wanted ∨ answers.capable = true := by
    rintro wanted ⟨⟩
    exact Or.inl heid.held
  unfold IdMapping.setre Ids.setre IdMapping.checkArgument prepareCreds
  rw [hrid.wanted, heid.wanted, require_seq_of hrid.check, require_seq_of heid.check,
    require_seq_of hprepared, require_seq_of hallowed, require_seq_of hheld]
  rfl

/-- The filesystem id can be set to an id that is held. -/
theorem IdMapping.setfs_of_names {id kid : UInt32} (hprepared : answers.prepared = true)
    (hid : mapping.Names old id kid) :
    (mapping.setfs answers old id).getD old = { old with fsid := kid } := by
  unfold IdMapping.setfs
  rw [hid.make]
  split_ifs with hallowed
  · rfl
  · have hsame : kid = old.fsid := by
      by_contra hother
      exact hallowed ⟨hid.valid, hprepared, Or.inl hid.held, hother⟩
    rw [hsame]
    rfl

/-- Ids within the old ones are set by two calls. -/
theorem exists_setres_setfs (hmaps : ∀ kid, old.Held kid → mapping.Maps kid)
    (hwithin : new.Within old) (hprepared : answers.prepared = true) :
    new = old ∨ ∃ rid eid sid fsid,
      mapping.setres answers old rid eid sid = .ok { new with fsid := new.eid } ∧
      (mapping.setfs answers { new with fsid := new.eid } fsid).getD
        { new with fsid := new.eid } = new := by
  refine hwithin.fsid.imp_right fun hfsid ↦ ?_
  have hnames : ∀ kid, new.Held kid → ∃ id, mapping.Names old id kid := fun kid hheld ↦
    exists_names hmaps (hwithin.held kid hheld)
  obtain ⟨rid, hrid⟩ := hnames new.id (Or.inl rfl)
  obtain ⟨eid, heid⟩ := hnames new.eid (Or.inr (Or.inl rfl))
  obtain ⟨sid, hsid⟩ := hnames new.sid (Or.inr (Or.inr rfl))
  obtain ⟨fsid, hnamed⟩ := hnames new.fsid hfsid
  have hfs : mapping.Names { new with fsid := new.eid } fsid new.fsid :=
    ⟨hnamed.asks, hnamed.make, hnamed.valid, hfsid⟩
  exact ⟨rid, eid, sid, fsid, IdMapping.setres_of_names hprepared hrid heid hsid,
    IdMapping.setfs_of_names hprepared hfs⟩

end Reaches

section Exact

variable {ns : Namespace} {task state : Task}

/-- The answers with which a call without the capability goes as far as its rule allows. -/
def willing : IdAnswers :=
  { prepared := true, capable := false, newUser := some 0, nprocLimit := 1, fixSetuid := none }

/-- A call without the capability leads on. -/
theorem reachable_call (hreach : (credentials ns task).ReachableUnder Unprivileged state)
    (call : IdCall) :
    (credentials ns task).ReachableUnder Unprivileged (state.call ns willing call).2 := by
  have hstep : (credentials ns task).step state ⟨call, willing⟩ =
      some (state.call ns willing call).2 := rfl
  have hunprivileged : Unprivileged state ⟨call, willing⟩ := rfl
  exact hreach.step hunprivileged hstep

/-- A change of the user ids that nothing refuses succeeds. -/
theorem commitUids_willing_ok (uids : Ids) : (state.commitUids willing (.ok uids)).1 = .ok () := by
  unfold Task.commitUids Task.userFor
  dsimp only
  split_ifs <;> rfl

/-- A change of the user ids that nothing refuses. -/
theorem commitUids_willing (uids : Ids) :
    (state.commitUids willing (.ok uids)).2.cred = { state.cred with
      uids, user := if uids.id = state.cred.uids.id then state.cred.user else uids.id } := by
  unfold Task.commitUids Task.userFor
  dsimp only
  split_ifs <;> rfl

/-- A change of the filesystem uid that nothing refuses. -/
theorem setfsuid_willing (uid : UInt32) :
    (setfsuid ns willing state uid).2.cred = { state.cred with
      uids := (ns.uid.setfs willing state.cred.uids uid).getD state.cred.uids } := by
  unfold setfsuid
  cases ns.uid.setfs willing state.cred.uids uid <;> rfl

/-- A change of the filesystem gid. -/
theorem setfsgid_willing (gid : UInt32) :
    (setfsgid ns willing state gid).2.cred = { state.cred with
      gids := (ns.gid.setfs willing state.cred.gids gid).getD state.cred.gids } := by
  unfold setfsgid
  cases ns.gid.setfs willing state.cred.gids gid <;> rfl

/-- User ids within those of a reached state are reached from it. -/
theorem exists_reachable_uids {uids : Ids}
    (hreach : (credentials ns task).ReachableUnder Unprivileged state)
    (hmaps : ∀ kid, state.cred.uids.Held kid → ns.uid.Maps kid)
    (huser : state.cred.user = state.cred.uids.id) (hwithin : uids.Within state.cred.uids) :
    ∃ next, (credentials ns task).ReachableUnder Unprivileged next ∧
      next.cred = { state.cred with uids, user := uids.id } := by
  obtain rfl | ⟨ruid, euid, suid, fsuid, hset, hfs⟩ :=
    exists_setres_setfs hmaps hwithin (show willing.prepared = true from rfl)
  · exact ⟨state, hreach, by rw [← huser]⟩
  · let middle := (state.call ns willing (.setresuid ruid euid suid)).2
    have hmiddle : middle.cred =
        { state.cred with uids := { uids with fsid := uids.eid }, user := uids.id } := by
      change (state.commitUids willing (ns.uid.setres willing _ ruid euid suid)).2.cred = _
      rw [hset, commitUids_willing, huser, ite_eq_right_iff.mpr Eq.symm]
    refine ⟨_, reachable_call (reachable_call hreach (.setresuid ruid euid suid)) (.setfsuid fsuid),
      ?_⟩
    change (setfsuid ns willing middle fsuid).2.cred = _
    rw [setfsuid_willing, hmiddle, hfs]

/-- Group ids within those of a reached state are reached from it. -/
theorem exists_reachable_gids {gids : Ids}
    (hreach : (credentials ns task).ReachableUnder Unprivileged state)
    (hmaps : ∀ kid, state.cred.gids.Held kid → ns.gid.Maps kid)
    (hwithin : gids.Within state.cred.gids) :
    ∃ next, (credentials ns task).ReachableUnder Unprivileged next ∧
      next.cred = { state.cred with gids } := by
  obtain rfl | ⟨rgid, egid, sgid, fsgid, hset, hfs⟩ :=
    exists_setres_setfs hmaps hwithin (show willing.prepared = true from rfl)
  · exact ⟨state, hreach, rfl⟩
  · let middle := (state.call ns willing (.setresgid rgid egid sgid)).2
    have hmiddle : middle.cred =
        { state.cred with gids := { gids with fsid := gids.eid } } := by
      change (state.commitGids (ns.gid.setres willing _ rgid egid sgid)).2.cred = _
      rw [hset]
      rfl
    refine ⟨_, reachable_call (reachable_call hreach (.setresgid rgid egid sgid)) (.setfsgid fsgid),
      ?_⟩
    change (setfsgid ns willing middle fsgid).2.cred = _
    rw [setfsgid_willing, hmiddle, hfs]

/-- The credentials that a task reaches without the capability are exactly those whose ids are
within the first ones. Assumes: the user charged at the start is the real uid, and the ids at the
start are mapped in the namespace. -/
theorem reachable_unprivileged_iff (huser : task.cred.user = task.cred.uids.id)
    (huids : ∀ kid, task.cred.uids.Held kid → ns.uid.Maps kid)
    (hgids : ∀ kid, task.cred.gids.Held kid → ns.gid.Maps kid) (cred : Cred) :
    (∃ reached, (credentials ns task).ReachableUnder Unprivileged reached ∧ reached.cred = cred) ↔
      cred.uids.Within task.cred.uids ∧ cred.gids.Within task.cred.gids ∧
        cred.user = cred.uids.id := by
  constructor
  · rintro ⟨reached, hreach, rfl⟩
    obtain ⟨hwithinUids, hwithinGids⟩ := within_of_unprivileged hreach
    exact ⟨hwithinUids, hwithinGids,
      user_of_reachable huser (hreach.mono fun _ _ _ ↦ trivial)⟩
  · rintro ⟨hwithinUids, hwithinGids, hcharged⟩
    obtain ⟨middle, hmiddle, hcred⟩ := exists_reachable_uids (.initial) huids huser hwithinUids
    obtain ⟨next, hnext, hlast⟩ := exists_reachable_gids hmiddle
      (by rw [hcred]; exact hgids) (by rw [hcred]; exact hwithinGids)
    refine ⟨next, hnext, ?_⟩
    rw [hlast, hcred, ← hcharged]

end Exact

/-- The first user namespace, in which every id is mapped to itself. -/
def initialNamespace : Namespace := ⟨⟨id, id⟩, ⟨id, id⟩⟩

/-- A program of the superuser with the set-user-id bit, started by the user 1000. -/
def setuidProgram : Task :=
  { cred := { uids := ⟨1000, 0, 0, 0⟩, gids := ⟨1000, 1000, 1000, 1000⟩, user := 1000 }
    nprocExceeded := false }

/-- The program can exchange its real and its effective uid, and keep the saved one. -/
theorem reachable_unprivileged_setuidProgram :
    ∃ reached, (credentials initialNamespace setuidProgram).ReachableUnder Unprivileged reached ∧
      reached.cred = { setuidProgram.cred with uids := ⟨0, 1000, 0, 1000⟩, user := 0 } := by
  have hmaps : ∀ ids : Ids, ids.id = 1000 → ids.eid = 0 ∨ ids.eid = 1000 →
      ids.sid = 0 ∨ ids.sid = 1000 → ∀ kid, ids.Held kid → initialNamespace.uid.Maps kid := by
    intro ids hreal heffective hsaved kid hheld
    have hkid : kid = 0 ∨ kid = 1000 := by
      obtain rfl | rfl | rfl := hheld
      · exact Or.inr hreal
      · exact heffective
      · exact hsaved
    obtain rfl | rfl := hkid
    · exact ⟨0, by decide, rfl, by decide⟩
    · exact ⟨1000, by decide, rfl, by decide⟩
  refine (reachable_unprivileged_iff rfl (hmaps _ rfl (Or.inl rfl) (Or.inl rfl))
    (hmaps _ rfl (Or.inr rfl) (Or.inr rfl)) _).mpr
      ⟨⟨?_, Or.inr (Or.inr (Or.inl rfl))⟩, .refl _, rfl⟩
  rintro kid (rfl | rfl | rfl)
  · exact Or.inr (Or.inl rfl)
  · exact Or.inl rfl
  · exact Or.inr (Or.inl rfl)

/-! ### Runs in which some calls have the capability -/

/-- An id is one of the four. -/
def Ids.Has (ids : Ids) (kid : UInt32) : Prop := ids.Held kid ∨ kid = ids.fsid

/-- An id that a rule leaves was there before or has been granted. -/
theorem IdMapping.Changes.has {mapping : IdMapping} {answers : IdAnswers}
    {arguments : List UInt32} {old new : Ids}
    (hchanges : mapping.Changes answers arguments old new) {kid : UInt32} (hhas : new.Has kid) :
    old.Has kid ∨ mapping.Granted answers arguments kid := by
  have hheld : new.Held kid → old.Has kid ∨ mapping.Granted answers arguments kid := fun hheld ↦
    (hchanges.held kid hheld).imp_left Or.inl
  obtain hnew | rfl := hhas
  · exact hheld hnew
  · obtain hnew | hgranted := hchanges.fsid
    · exact hheld hnew
    · exact Or.inr hgranted

section Provenance

variable {ns : Namespace} {task : Task}

/-- Every id at the end of a run is one of the first four of its kind, or a call that had the
capability has asked for it. -/
theorem granted_of_run {events : List IdEvent} {final : Task}
    (hrun : (credentials ns task).run task events = some final) (kid : UInt32) :
    (final.cred.uids.Has kid → task.cred.uids.Has kid ∨
      ∃ event ∈ events, ns.uid.Granted event.answers event.call.uids kid) ∧
    (final.cred.gids.Has kid → task.cred.gids.Has kid ∨
      ∃ event ∈ events, ns.gid.Granted event.answers event.call.gids kid) := by
  have hinitial : (credentials ns task).run (credentials ns task).initial events = some final :=
    hrun
  refine System.run_invariant ?_ ?_ hinitial
  · exact ⟨Or.inl, Or.inl⟩
  · rintro events state event next ⟨huids, hgids⟩ hstep
    obtain rfl := Option.some.inj hstep
    have hearlier : ∀ {granted : IdEvent → Prop},
        (∃ earlier ∈ events, granted earlier) → ∃ earlier ∈ events ++ [event], granted earlier := by
      rintro granted ⟨earlier, hmember, hgranted⟩
      exact ⟨earlier, List.mem_append_left _ hmember, hgranted⟩
    have hlast : event ∈ events ++ [event] := by simp
    have hchanges : state.cred.Changes ns event (state.call ns event.answers event.call).2.cred :=
      Task.call_cred event
    cases hchanges with
    | none hsame =>
      rw [hsame]
      exact ⟨fun hhas ↦ (huids hhas).imp_right hearlier, fun hhas ↦ (hgids hhas).imp_right hearlier⟩
    | uids hchanges hsame huser =>
      refine ⟨fun hhas ↦ ?_, fun hhas ↦ (hgids (hsame ▸ hhas)).imp_right hearlier⟩
      obtain hold | hgranted := hchanges.has hhas
      · exact (huids hold).imp_right hearlier
      · exact Or.inr ⟨event, hlast, hgranted⟩
    | gids hchanges hsame huser =>
      refine ⟨fun hhas ↦ (huids (hsame ▸ hhas)).imp_right hearlier, fun hhas ↦ ?_⟩
      obtain hold | hgranted := hchanges.has hhas
      · exact (hgids hold).imp_right hearlier
      · exact Or.inr ⟨event, hlast, hgranted⟩

end Provenance

/-- A task of the superuser. -/
def superuser : Task :=
  { cred := { uids := ⟨0, 0, 0, 0⟩, gids := ⟨0, 0, 0, 0⟩, user := 0 }, nprocExceeded := false }

/-- The superuser becomes the user 7, and cannot become the user 8 then. -/
def becomesSeven : List IdEvent :=
  [⟨.setuid 7, { willing with capable := true }⟩, ⟨.setuid 8, willing⟩]

/-- The id 7 that the superuser ends with has been granted by a call. -/
theorem granted_of_run_becomesSeven :
    ∃ final, (credentials initialNamespace superuser).run superuser becomesSeven = some final ∧
      final.cred.uids.eid = 7 ∧ ∃ event ∈ becomesSeven,
        initialNamespace.uid.Granted event.answers event.call.uids 7 := by
  have hrun : (credentials initialNamespace superuser).run superuser becomesSeven =
      some { superuser with cred := { superuser.cred with uids := ⟨7, 7, 7, 7⟩, user := 7 } } := rfl
  refine ⟨_, hrun, rfl, ((granted_of_run hrun 7).1 (Or.inl (Or.inl rfl))).resolve_left ?_⟩
  rintro ((hsame | hsame | hsame) | hsame) <;> exact absurd hsame (by decide)

/-! ### Giving up privileges -/

section Drop

variable {ns : Namespace} {task : Task} {answers : IdAnswers}

/-- A call that asks for one id as the real, the effective and the saved uid: `setreuid` of twice
the id, `setresuid` of three times the id, and `setuid` of a caller with the capability. -/
def IdEvent.DropsTo (ns : Namespace) (event : IdEvent) (kid : UInt32) : Prop :=
  match event.call with
  | .setreuid ruid euid => ns.uid.wanted ruid = some kid ∧ ns.uid.wanted euid = some kid
  | .setuid uid => event.answers.capable = true ∧ ns.uid.make uid = kid
  | .setresuid ruid euid suid => ns.uid.wanted ruid = some kid ∧ ns.uid.wanted euid = some kid ∧
      ns.uid.wanted suid = some kid
  | _ => False

/-- The ids within four times one id. -/
theorem Ids.Within.eq_of_single {ids : Ids} {kid : UInt32}
    (hwithin : ids.Within ⟨kid, kid, kid, kid⟩) : ids = ⟨kid, kid, kid, kid⟩ := by
  have hone : ∀ new, ids.Held new → new = kid := by
    intro new hheld
    obtain hsame | hsame | hsame := hwithin.held new hheld <;> exact hsame
  obtain hsame | hfsid := hwithin.fsid
  · exact hsame
  · obtain ⟨id, eid, sid, fsid⟩ := ids
    rw [hone id (Or.inl rfl), hone eid (Or.inr (Or.inl rfl)), hone sid (Or.inr (Or.inr rfl)),
      hone fsid hfsid]

/-- A change of the user ids that has been made. -/
theorem uids_of_commitUids_ok {reply : Except Errno Ids} {value : UInt32}
    (hok : (task.commitUids answers reply).1.map (fun _ ↦ value) = .ok value) :
    ∃ uids, reply = .ok uids ∧ (task.commitUids answers reply).2.cred.uids = uids := by
  obtain ⟨⟨errno, hrefused⟩, -⟩ | ⟨uids, hreply, -, hcred⟩ := task.commitUids_cases answers reply
  · rw [hrefused] at hok
    injection hok
  · exact ⟨uids, hreply, by rw [hcred]⟩

/-- A call that asks for one id everywhere, and succeeds, sets all four user ids to it. -/
theorem uids_of_dropsTo {event : IdEvent} {kid : UInt32} (hdrops : event.DropsTo ns kid)
    (hok : (task.call ns event.answers event.call).1 = .ok 0) :
    (task.call ns event.answers event.call).2.cred.uids = ⟨kid, kid, kid, kid⟩ := by
  obtain ⟨call, answers⟩ := event
  cases call with
  | setreuid ruid euid =>
    obtain ⟨hruid, heuid⟩ := hdrops
    obtain ⟨uids, hreply, hcommitted⟩ := uids_of_commitUids_ok hok
    change (task.commitUids answers _).2.cred.uids = _
    rw [hcommitted]
    unfold IdMapping.setre Ids.setre at hreply
    obtain ⟨⟨⟩, -, hreply⟩ := seq_eq_ok_iff.mp hreply
    obtain ⟨⟨⟩, -, hreply⟩ := seq_eq_ok_iff.mp hreply
    obtain ⟨⟨⟩, -, hreply⟩ := seq_eq_ok_iff.mp hreply
    obtain ⟨-, hreply⟩ := require_seq_eq_ok_iff.mp hreply
    obtain ⟨-, hreply⟩ := require_seq_eq_ok_iff.mp hreply
    rw [hruid, heuid] at hreply
    exact (Except.ok.inj hreply).symm
  | setuid uid =>
    obtain ⟨hcapable, hmake⟩ := hdrops
    obtain ⟨uids, hreply, hcommitted⟩ := uids_of_commitUids_ok hok
    change (task.commitUids answers _).2.cred.uids = _
    rw [hcommitted]
    unfold IdMapping.set Ids.set at hreply
    obtain ⟨-, hreply⟩ := require_seq_eq_ok_iff.mp hreply
    obtain ⟨⟨⟩, -, hreply⟩ := seq_eq_ok_iff.mp hreply
    obtain ⟨-, hreply⟩ := require_seq_eq_ok_iff.mp hreply
    rw [if_pos hcapable, hmake] at hreply
    exact (Except.ok.inj hreply).symm
  | setresuid ruid euid suid =>
    obtain ⟨hruid, heuid, hsuid⟩ := hdrops
    obtain ⟨uids, hreply, hcommitted⟩ := uids_of_commitUids_ok hok
    change (task.commitUids answers _).2.cred.uids = _
    rw [hcommitted]
    unfold IdMapping.setres Ids.setres at hreply
    obtain ⟨⟨⟩, -, hreply⟩ := seq_eq_ok_iff.mp hreply
    obtain ⟨⟨⟩, -, hreply⟩ := seq_eq_ok_iff.mp hreply
    obtain ⟨⟨⟩, -, hreply⟩ := seq_eq_ok_iff.mp hreply
    obtain ⟨⟨⟩, -, hreply⟩ := seq_eq_ok_iff.mp hreply
    obtain ⟨-, hreply⟩ := require_seq_eq_ok_iff.mp hreply
    obtain ⟨-, hreply⟩ := require_seq_eq_ok_iff.mp hreply
    obtain ⟨-, hreply⟩ := require_seq_eq_ok_iff.mp hreply
    rw [hruid, heuid, hsuid] at hreply
    exact (Except.ok.inj hreply).symm
  | setfsuid _ | setregid _ _ | setgid _ | setresgid _ _ _ | setfsgid _ => exact hdrops.elim

/-- Privileges that have been given up stay given up: after a call that asks for one id everywhere
and succeeds, every run without the capability leaves all four user ids at it. -/
theorem dropped_for_good {event : IdEvent} {kid : UInt32} (hdrops : event.DropsTo ns kid)
    (hok : (task.call ns event.answers event.call).1 = .ok 0) {state : Task}
    (hreach : (credentials ns (task.call ns event.answers event.call).2).ReachableUnder Unprivileged
      state) : state.cred.uids = ⟨kid, kid, kid, kid⟩ := by
  have hwithin := (within_of_unprivileged hreach).1
  rw [uids_of_dropsTo hdrops hok] at hwithin
  exact hwithin.eq_of_single

/-- An argument that asks for an id asks for it in other ids that hold it. -/
theorem IdMapping.Names.of_held {mapping : IdMapping} {old new : Ids} {id kid : UInt32}
    (hnames : mapping.Names old id kid) (hheld : new.Held kid) : mapping.Names new id kid :=
  ⟨hnames.asks, hnames.make, hnames.valid, hheld⟩

/-- A call that exchanges the real and the effective id, where the ids are mapped there and back,
can be made twice, and brings both ids back. -/
theorem exchange_twice {mapping : IdMapping} {ids : Task → Ids}
    {call : Task → Except Errno Unit × Task}
    (hcall : ∀ current : Task,
      mapping.Names (ids current) (mapping.fromMunged (ids current).id) (ids current).id →
      mapping.Names (ids current) (mapping.fromMunged (ids current).eid) (ids current).eid →
      ∃ next, call current = (.ok (), next) ∧ ids next =
        ⟨(ids current).eid, (ids current).id, (ids current).id, (ids current).id⟩)
    (hreal : mapping.Names (ids task) (mapping.fromMunged (ids task).id) (ids task).id)
    (heffective : mapping.Names (ids task) (mapping.fromMunged (ids task).eid) (ids task).eid) :
    ∃ middle last : Task, call task = (.ok (), middle) ∧ call middle = (.ok (), last) ∧
      (ids last).id = (ids task).id ∧ (ids last).eid = (ids task).eid := by
  obtain ⟨middle, hfirst, hmiddle⟩ := hcall task hreal heffective
  have hback : mapping.Names (ids middle) (mapping.fromMunged (ids middle).id) (ids middle).id := by
    rw [hmiddle]
    exact heffective.of_held (Or.inl rfl)
  have hforth :
      mapping.Names (ids middle) (mapping.fromMunged (ids middle).eid) (ids middle).eid := by
    rw [hmiddle]
    exact hreal.of_held (Or.inr (Or.inl rfl))
  obtain ⟨last, hsecond, hlast⟩ := hcall middle hback hforth
  refine ⟨middle, last, hfirst, hsecond, ?_⟩
  rw [hlast, hmiddle]
  exact ⟨rfl, rfl⟩

/-- A task can exchange its real and its effective uid, and exchange them back. Assumes: the two ids
are mapped in the namespace and back. -/
theorem swap_swap (hreal : ns.uid.Names task.cred.uids (getuid ns task) task.cred.uids.id)
    (heffective : ns.uid.Names task.cred.uids (geteuid ns task) task.cred.uids.eid) :
    ∃ middle last : Task,
      setreuid ns willing task (geteuid ns task) (getuid ns task) = (.ok (), middle) ∧
      setreuid ns willing middle (geteuid ns middle) (getuid ns middle) = (.ok (), last) ∧
      last.cred.uids.id = task.cred.uids.id ∧ last.cred.uids.eid = task.cred.uids.eid := by
  have hexchange := @exchange_twice task ns.uid (fun task ↦ task.cred.uids)
    (fun task ↦ setreuid ns willing task (geteuid ns task) (getuid ns task))
  refine hexchange (fun current hid heid ↦ ?_) hreal heffective
  unfold setreuid getuid geteuid
  rw [IdMapping.setre_of_names rfl heid (Or.inr rfl) hid]
  refine ⟨_, Prod.ext (commitUids_willing_ok _) rfl, ?_⟩
  rw [commitUids_willing]

/-- A task can exchange its real and its effective gid, and exchange them back. Assumes: as before,
of the gids. -/
theorem swap_swap_gids (hreal : ns.gid.Names task.cred.gids (getgid ns task) task.cred.gids.id)
    (heffective : ns.gid.Names task.cred.gids (getegid ns task) task.cred.gids.eid) :
    ∃ middle last : Task,
      setregid ns willing task (getegid ns task) (getgid ns task) = (.ok (), middle) ∧
      setregid ns willing middle (getegid ns middle) (getgid ns middle) = (.ok (), last) ∧
      last.cred.gids.id = task.cred.gids.id ∧ last.cred.gids.eid = task.cred.gids.eid := by
  have hexchange := @exchange_twice task ns.gid (fun task ↦ task.cred.gids)
    (fun task ↦ setregid ns willing task (getegid ns task) (getgid ns task))
  refine hexchange (fun current hid heid ↦ ?_) hreal heffective
  unfold setregid getgid getegid
  rw [IdMapping.setre_of_names rfl heid (Or.inr rfl) hid]
  exact ⟨_, rfl, rfl⟩

/-- The three ids that are read can be set again, which leaves them. Assumes: the ids held are
mapped in the namespace and back. -/
theorem IdMapping.setres_getres {mapping : IdMapping} {ids : Ids} (answers : IdAnswers)
    (hprepared : answers.prepared = true)
    (hnames : ∀ kid, ids.Held kid → mapping.Names ids (mapping.fromMunged kid) kid) :
    ∃ rid eid sid, mapping.getres ids [true, true, true] = (.ok (), [rid, eid, sid]) ∧
      mapping.setres answers ids rid eid sid = .ok { ids with fsid := ids.eid } :=
  ⟨_, _, _, rfl, IdMapping.setres_of_names hprepared (hnames _ (Or.inl rfl))
    (hnames _ (Or.inr (Or.inl rfl))) (hnames _ (Or.inr (Or.inr rfl)))⟩

/-- The uids that `getresuid` stores can be set again with `setresuid`: the three stay as they are,
and the filesystem uid follows the effective one. Assumes: the uids held are mapped in the namespace
and back. -/
theorem setresuid_getresuid
    (hnames : ∀ kid, task.cred.uids.Held kid →
      ns.uid.Names task.cred.uids (ns.uid.fromMunged kid) kid) :
    ∃ ruid euid suid, getresuid ns task [true, true, true] = (.ok (), [ruid, euid, suid]) ∧
      (setresuid ns willing task ruid euid suid).1 = .ok () ∧
      (setresuid ns willing task ruid euid suid).2.cred.uids =
        { task.cred.uids with fsid := task.cred.uids.eid } := by
  obtain ⟨ruid, euid, suid, hread, hset⟩ := IdMapping.setres_getres willing rfl hnames
  refine ⟨ruid, euid, suid, hread, ?_⟩
  unfold setresuid
  rw [hset, commitUids_willing]
  exact ⟨commitUids_willing_ok _, rfl⟩

/-- The gids that `getresgid` stores can be set again with `setresgid`. Assumes: as before, of the
gids. -/
theorem setresgid_getresgid
    (hnames : ∀ kid, task.cred.gids.Held kid →
      ns.gid.Names task.cred.gids (ns.gid.fromMunged kid) kid) :
    ∃ rgid egid sgid, getresgid ns task [true, true, true] = (.ok (), [rgid, egid, sgid]) ∧
      (setresgid ns willing task rgid egid sgid).1 = .ok () ∧
      (setresgid ns willing task rgid egid sgid).2.cred.gids =
        { task.cred.gids with fsid := task.cred.gids.eid } := by
  obtain ⟨rgid, egid, sgid, hread, hset⟩ := IdMapping.setres_getres willing rfl hnames
  refine ⟨rgid, egid, sgid, hread, ?_⟩
  unfold setresgid
  rw [hset]
  exact ⟨rfl, rfl⟩

end Drop

/-- The program of the superuser makes the user's id its only one. -/
def dropsToUser : IdEvent := ⟨.setreuid 1000 1000, willing⟩

/-- Then it asks for the superuser's id in vain. -/
theorem dropped_for_good_setuidProgram :
    ((setuidProgram.call initialNamespace willing (.setreuid 1000 1000)).2.call initialNamespace
      willing (.setreuid 0 0)).2.cred.uids = ⟨1000, 1000, 1000, 1000⟩ := by
  have hdrops : dropsToUser.DropsTo initialNamespace 1000 := ⟨rfl, rfl⟩
  have hok : (setuidProgram.call initialNamespace willing (.setreuid 1000 1000)).1 = .ok 0 := by
    decide +kernel
  exact dropped_for_good hdrops hok (reachable_call .initial (.setreuid 0 0))

end Apes.Kernel

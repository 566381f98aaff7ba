import Growbox.AppLocks
import Growbox.CJsonParse
import Growbox.Lib.Owner

/-!
# `main.cpp`: the request threads and the signals

Every thread takes a request, answers it, and then looks at the flags that requests leave:
`nm_restart_needed` once an address has been stored, `reboot_needed` and `poweroff_needed`.
Storing an address and setting the flag are two steps, so are taking the network down and up
again, and four threads do all this at the same time, with the mutexes that each handler takes
(`AppReq.mutexes`) and beside workers that take one mutex at a time.  No change is lost
(`network_change_takes_effect`), and no thread waits for one that waits for it: all come to rest,
but for those that want `flc_mutex` after a request that has kept it (`request_threads_come_to_rest`).

The signals leave their number in one variable, which the waiter reads twice and clears after a
reload: so one that should end the server may be lost (`termination_obeyed_iff`).
-/

namespace Growbox

open EventRun Pool Owner

/-! ## The network -/

/-- What `nmcli con mod` stores for the connection. -/
inductive Profile where
  | auto
  | manual (ip gw : CStr)
  deriving DecidableEq, Repr

/-- `"%s.%s.%s.%s"` -/
def address (a b c d : CStr) : CStr := a ++ ".".toList ++ b ++ ".".toList ++ c ++ ".".toList ++ d

/-- `set_dynamic_ip`, `set_static_ip` -/
def LanSett.profile (lan : LanSett) : Profile :=
  if lan.dhcp then .auto
  else .manual (address lan.ip4 lan.ip3 lan.ip2 lan.ip1) (address lan.gw4 lan.gw3 lan.gw2 lan.gw1)

/-! ## The threads -/

/-- `app_reboot`, `app_poweroff` -/
inductive Power where
  | reboot | poweroff
  deriving DecidableEq, Repr

/-- Where a thread of `request_handler` is, or a worker. -/
inductive ServePc where
  | accepting
  /-- waits for the first of the mutexes that the handler takes one after the other -/
  | waiting (m : Mutex) (ms : List Mutex)
  /-- has the first one -/
  | inside (m : Mutex) (ms : List Mutex)
  /-- waits for `flc_mutex`, with a body that will be rejected -/
  | rejecting
  /-- waits for `settings_mutex` -/
  | settings (lan : LanSett)
  /-- runs `nmcli con mod`, with `settings_mutex` -/
  | editing (lan : LanSett)
  /-- waits for `app_data_mutex`, with `settings_mutex`; the profile is stored -/
  | flagging
  /-- waits for `app_data_mutex` to ask for a reboot or the power to go off -/
  | power (p : Power)
  | replying
  /-- waits for `app_data_mutex`, behind `FCGX_Finish_r` -/
  | checking
  /-- runs `nmcli networking off`, with `app_data_mutex` -/
  | restarting
  /-- runs `nmcli networking on`, with `app_data_mutex` -/
  | starting
  /-- behind the restart, with `app_data_mutex` -/
  | powering
  /-- a worker that has no mutex and wants none -/
  | resting
  /-- a worker that waits for a mutex -/
  | wanting (m : Mutex)
  /-- a worker that has it -/
  | having (m : Mutex)
  deriving DecidableEq, Repr

/-- `kept` are the mutexes that a handler has returned with.  `active` is the profile the network was
last taken up with, none while it is down, and `restartFailed` says that the last command of a restart
went wrong; `due` that `reboot` or `poweroff` has been granted, and not been run since. -/
structure Gbweb where
  remote : Power → Bool
  nmRestartNeeded : Bool
  needed : Power → Bool
  owner : Mutex → Option Nat
  kept : Mutex → Bool
  stored : Profile
  active : Option Profile
  restartFailed : Bool
  due : Power → Bool
  pool : List ServePc

inductive MainEv where
  /-- a request, with the handler that it is given to and what that one finds -/
  | accept (i : Nat) (call : Option (Outcomes × AppReq))
  /-- a worker wants a mutex -/
  | work (i : Nat) (m : Mutex)
  /-- the next action of the thread, with how its command ends -/
  | step (i : Nat) (ok : Bool)

/-- What is behind a section. -/
def next : List Mutex → ServePc
  | [] => .replying
  | m :: ms => .waiting m ms

def AppReq.first (o : Outcomes) : AppReq → ServePc
  | .setLan json =>
    match jsonToLanSettings json with
    | .error _ => .replying
    | .ok lan => .settings lan
  | .reboot => .power .reboot
  | .poweroff => .power .poweroff
  | .setFlcChPwr none => .rejecting
  | r => next (r.mutexes o)

def firstOf : Option (Outcomes × AppReq) → ServePc
  | none => .replying
  | some (o, r) => r.first o

/-- A thread goes on once the mutex is free. -/
def whenFree (s : Gbweb) (m : Mutex) (s' : Gbweb) : Option Gbweb :=
  if s.owner m = none ∧ s.kept m = false then some s' else none

/-- The next action of thread `i`. -/
def serveMove (s : Gbweb) (i : Nat) (ok : Bool) : ServePc → Option Gbweb
  | .accepting | .resting => none
  | .waiting m ms =>
    whenFree s m { s with owner := Function.update s.owner m (some i), pool := s.pool.set i (.inside m ms) }
  | .inside m ms => some { s with owner := Function.update s.owner m none, pool := s.pool.set i (next ms) }
  | .rejecting =>
    whenFree s .flc { s with kept := Function.update s.kept .flc true, pool := s.pool.set i .replying }
  | .settings lan =>
    whenFree s .settings { s with
      owner := Function.update s.owner .settings (some i)
      pool := s.pool.set i (.editing lan) }
  | .editing lan =>
    if ok then some { s with stored := lan.profile, pool := s.pool.set i .flagging }
    else some { s with owner := Function.update s.owner .settings none, pool := s.pool.set i .replying }
  | .flagging =>
    whenFree s .appData { s with
      nmRestartNeeded := true
      owner := Function.update s.owner .settings none
      pool := s.pool.set i .replying }
  | .power p =>
    whenFree s .appData { s with
      needed := fun q => if q = p ∧ s.remote p then true else s.needed q
      due := fun q => if q = p ∧ s.remote p then true else s.due q
      pool := s.pool.set i .replying }
  | .replying => some { s with pool := s.pool.set i .checking }
  | .checking =>
    whenFree s .appData { s with
      owner := Function.update s.owner .appData (some i)
      pool := s.pool.set i (if s.nmRestartNeeded then .restarting else .powering) }
  | .restarting =>
    if ok then some { s with active := none, restartFailed := false, pool := s.pool.set i .starting }
    else some { s with restartFailed := true, pool := s.pool.set i .powering }
  | .starting =>
    if ok then some { s with
      active := some s.stored
      nmRestartNeeded := false
      restartFailed := false
      pool := s.pool.set i .powering }
    else some { s with restartFailed := true, pool := s.pool.set i .powering }
  | .powering => some { s with
      due := fun p => s.due p && !s.needed p
      owner := Function.update s.owner .appData none
      pool := s.pool.set i .accepting }
  | .wanting m =>
    whenFree s m { s with owner := Function.update s.owner m (some i), pool := s.pool.set i (.having m) }
  | .having m => some { s with owner := Function.update s.owner m none, pool := s.pool.set i .resting }

def mainStep (s : Gbweb) : MainEv → Option Gbweb
  | .accept i call =>
    if s.pool[i]? = some .accepting then some { s with pool := s.pool.set i (firstOf call) } else none
  | .work i m =>
    if s.pool[i]? = some .resting then some { s with pool := s.pool.set i (.wanting m) } else none
  | .step i ok => s.pool[i]?.bind (serveMove s i ok)

/-! ## Where the threads are -/

namespace ServePc

/-- The mutex that the thread has. -/
def held : ServePc → Option Mutex
  | .inside m _ | .having m => some m
  | .editing _ | .flagging => some .settings
  | .restarting | .starting | .powering => some .appData
  | _ => none

/-- The mutex that the thread waits for. -/
def wants : ServePc → Option Mutex
  | .waiting m _ | .wanting m => some m
  | .rejecting => some .flc
  | .settings _ => some .settings
  | .flagging | .power _ | .checking => some .appData
  | _ => none

def Inside (m : Mutex) (t : ServePc) : Prop := t.held = some m

def AtRest (t : ServePc) : Prop := t = .accepting ∨ t = .resting

/-- The thread will look at `nm_restart_needed`, or is acting on it. -/
def WillRestart (t : ServePc) : Prop := t = .replying ∨ t = .checking ∨ t = .restarting ∨ t = .starting

def WillPower (t : ServePc) : Prop := t.WillRestart ∨ t = .powering

/-- The network is being restarted. -/
def Restarts (t : ServePc) : Prop := t = .restarting ∨ t = .starting

end ServePc

open ServePc

theorem whenFree_some {s s' s'' : Gbweb} {m : Mutex} (h : whenFree s m s' = some s'') :
    (s.owner m = none ∧ s.kept m = false) ∧ s' = s'' := by
  unfold whenFree at h
  split at h
  · next hfree => exact ⟨hfree, Option.some.inj h⟩
  · cases h

/-- Behind a section the thread replies, or waits for the next one. -/
theorem next_eq (ms : List Mutex) : next ms = .replying ∨ ∃ m ms', next ms = .waiting m ms' := by
  cases ms with
  | nil => exact .inl rfl
  | cons m ms => exact .inr ⟨m, ms, rfl⟩

section
variable {pool : List ServePc} {p : ServePc → Prop} {i : Nat} {t t' : ServePc} (hi : pool[i]? = some t)

include hi

theorem has_next (hp : p t → p t') (h : Has p pool) : Has p (pool.set i t') :=
  (has_set hi).mpr (((has_iff hi).mp h).imp_right hp)

theorem has_before (hp : ¬ p t') (h : Has p (pool.set i t')) : Has p pool :=
  has_of_hasBut (((has_set hi).mp h).resolve_right hp)

end

/-! ## Who has the mutexes -/

section
variable {owner : Mutex → Option Nat} {pool : List ServePc} {i : Nat} {t t' : ServePc} {m : Mutex}
  (hown : ∀ k, Owns (owner k) (Inside k) pool) (hi : pool[i]? = some t)

include hown hi

theorem owns_keep (ht : t'.held = t.held) (k : Mutex) : Owns (owner k) (Inside k) (pool.set i t') :=
  (hown k).keep hi (by rw [Inside, Inside, ht])

theorem owns_take (ht : t.held = none) (hfree : owner m = none) (ht' : t'.held = some m) (k : Mutex) :
    Owns (Function.update owner m (some i) k) (Inside k) (pool.set i t') := by
  by_cases hk : k = m
  · subst hk
    rw [Function.update_self]
    exact Owns.take (hfree ▸ hown k) hi ht'
  · rw [Function.update_of_ne hk]
    refine (hown k).keep hi ?_
    rw [Inside, Inside, ht, ht']
    simp [Ne.symm hk]

theorem owns_release (ht : t.held = some m) (ht' : t'.held = none) (k : Mutex) :
    Owns (Function.update owner m none k) (Inside k) (pool.set i t') := by
  by_cases hk : k = m
  · subst hk
    rw [Function.update_self]
    exact (hown k).drop hi ht (by simp [Inside, ht'])
  · rw [Function.update_of_ne hk]
    refine (hown k).keep hi ?_
    rw [Inside, Inside, ht, ht']
    simp [Ne.symm hk]

end

theorem held_next (ms : List Mutex) : (next ms).held = none := by cases ms <;> rfl

/-! ## What an action keeps -/

section
variable {s s' : Gbweb} {i : Nat} {t : ServePc} {ok : Bool} (hi : s.pool[i]? = some t)
  (h : serveMove s i ok t = some s')

include hi h

theorem owns_move (hs : ∀ m, Owns (s.owner m) (Inside m) s.pool) (m : Mutex) :
    Owns (s'.owner m) (Inside m) s'.pool := by
  cases t with
  | accepting | resting => cases h
  | waiting | settings | wanting =>
    obtain ⟨hfree, rfl⟩ := whenFree_some h
    exact owns_take hs hi rfl hfree.1 rfl m
  | checking =>
    obtain ⟨hfree, rfl⟩ := whenFree_some h
    exact owns_take hs hi rfl hfree.1 (by cases s.nmRestartNeeded <;> rfl) m
  | inside k ms =>
    cases h
    exact owns_release hs hi rfl (held_next ms) m
  | having | powering =>
    cases h
    exact owns_release hs hi rfl rfl m
  | flagging =>
    obtain ⟨-, rfl⟩ := whenFree_some h
    exact owns_release hs hi rfl rfl m
  | editing lan =>
    cases ok with
    | true =>
      cases h
      exact owns_keep hs hi (by rfl) m
    | false =>
      cases h
      exact owns_release hs hi rfl rfl m
  | rejecting | power =>
    obtain ⟨-, rfl⟩ := whenFree_some h
    exact owns_keep hs hi (by rfl) m
  | replying =>
    cases h
    exact owns_keep hs hi (by rfl) m
  | restarting | starting => cases ok <;> cases h <;> exact owns_keep hs hi (by rfl) m

theorem kept_move (hs : ∀ m, s.kept m = true → m = .flc) (m : Mutex) (hm : s'.kept m = true) : m = .flc := by
  cases t with
  | accepting | resting => cases h
  | rejecting =>
    obtain ⟨-, rfl⟩ := whenFree_some h
    by_contra hne
    exact hne (hs m (by rwa [← Function.update_of_ne hne true s.kept]))
  | waiting | settings | wanting | checking | flagging | power =>
    obtain ⟨-, rfl⟩ := whenFree_some h
    exact hs m hm
  | inside | having | powering | replying =>
    cases h
    exact hs m hm
  | editing | restarting | starting => cases ok <;> cases h <;> exact hs m hm

theorem restarts_move (hown : ∀ m, Owns (s.owner m) (Inside m) s.pool)
    (hs : Has Restarts s.pool → s.nmRestartNeeded = true) : Has Restarts s'.pool → s'.nmRestartNeeded = true := by
  cases t with
  | accepting | resting => cases h
  | waiting | settings | wanting | rejecting | power =>
    obtain ⟨-, rfl⟩ := whenFree_some h
    exact fun hr => hs (has_before hi (by simp [Restarts]) hr)
  | inside m ms =>
    cases h
    refine fun hr => hs (has_before hi ?_ hr)
    rcases next_eq ms with he | ⟨_, _, he⟩ <;> simp [Restarts, he]
  | having | replying | powering =>
    cases h
    exact fun hr => hs (has_before hi (by simp [Restarts]) hr)
  | editing => cases ok <;> cases h <;> exact fun hr => hs (has_before hi (by simp [Restarts]) hr)
  | flagging =>
    obtain ⟨-, rfl⟩ := whenFree_some h
    exact fun _ => rfl
  | checking =>
    obtain ⟨-, rfl⟩ := whenFree_some h
    cases hflag : s.nmRestartNeeded with
    | true => exact fun _ => rfl
    | false =>
      rw [hflag] at hs
      exact fun hr => hs (has_before hi (by simp [Restarts]) hr)
  | restarting => cases ok <;> cases h <;> exact fun _ => hs (has_of_getElem? hi (.inl rfl))
  | starting =>
    cases ok with
    | false =>
      cases h
      exact fun _ => hs (has_of_getElem? hi (.inr rfl))
    | true =>
      cases h
      -- nobody else is restarting, so the flag may go
      intro hr
      obtain ⟨j, u, hj, hu, hur⟩ := ((has_set hi).mp hr).resolve_right (by simp [Restarts])
      have hin : Inside .appData u := by rcases hur with rfl | rfl <;> rfl
      exact absurd ((hown .appData).eq hi rfl hu hin) hj

theorem inEffect_move (hrestart : Has Restarts s.pool → s.nmRestartNeeded = true)
    (hs : s.active = some s.stored ∨ s.nmRestartNeeded = true ∨ Has (· = .flagging) s.pool) :
    s'.active = some s'.stored ∨ s'.nmRestartNeeded = true ∨ Has (· = .flagging) s'.pool := by
  cases t with
  | accepting | resting => cases h
  | waiting | settings | wanting | rejecting | power | checking =>
    obtain ⟨-, rfl⟩ := whenFree_some h
    exact hs.imp_right (Or.imp_right (has_next hi (by simp)))
  | inside | having | replying | powering =>
    cases h
    exact hs.imp_right (Or.imp_right (has_next hi (by simp)))
  | editing lan =>
    cases ok with
    | true =>
      cases h
      exact .inr (.inr ((has_set hi).mpr (.inr rfl)))
    | false =>
      cases h
      exact hs.imp_right (Or.imp_right (has_next hi (by simp)))
  | flagging =>
    obtain ⟨-, rfl⟩ := whenFree_some h
    exact .inr (.inl rfl)
  | restarting =>
    have hflag := hrestart (has_of_getElem? hi (.inl rfl))
    cases ok <;> cases h <;> exact .inr (.inl hflag)
  | starting =>
    cases ok with
    | true =>
      cases h
      exact .inl rfl
    | false =>
      cases h
      exact hs.imp_right (Or.imp_right (has_next hi (by simp)))

theorem due_move (hs : ∀ p, s.due p = true → s.needed p = true ∧ Has WillPower s.pool) (q : Power)
    (hq : s'.due q = true) : s'.needed q = true ∧ Has WillPower s'.pool := by
  cases t with
  | accepting | resting => cases h
  | waiting | settings | wanting | rejecting | flagging =>
    obtain ⟨-, rfl⟩ := whenFree_some h
    exact (hs q hq).imp_right (has_next hi (by simp [WillPower, WillRestart]))
  | inside | having | replying =>
    cases h
    exact (hs q hq).imp_right (has_next hi (by simp [WillPower, WillRestart]))
  | checking =>
    obtain ⟨-, rfl⟩ := whenFree_some h
    refine (hs q hq).imp_right (has_next hi ?_)
    cases s.nmRestartNeeded <;> simp [WillPower, WillRestart]
  | editing | restarting | starting =>
    cases ok <;> cases h <;>
      exact (hs q hq).imp_right (has_next hi (by simp [WillPower, WillRestart]))
  | power p =>
    obtain ⟨-, rfl⟩ := whenFree_some h
    refine ⟨?_, (has_set hi).mpr (.inr (.inl (.inl rfl)))⟩
    dsimp only at hq ⊢
    split
    · rfl
    · next hne =>
      rw [if_neg hne] at hq
      exact (hs q hq).1
  | powering =>
    -- what is due is needed, so its command is run here
    cases h
    have hboth : (s.due q && !s.needed q) = true := hq
    rw [Bool.and_eq_true, Bool.not_eq_true'] at hboth
    rw [(hs q hboth.1).1] at hboth
    cases hboth.2

/-- Only a restart that goes wrong leaves the flag behind. -/
theorem flagged_move (hs : s.nmRestartNeeded = true → s.restartFailed = true ∨ Has WillRestart s.pool) :
    s'.nmRestartNeeded = true → s'.restartFailed = true ∨ Has WillRestart s'.pool := by
  cases t with
  | accepting | resting => cases h
  | waiting | settings | wanting | rejecting | power =>
    obtain ⟨-, rfl⟩ := whenFree_some h
    exact fun hflag => (hs hflag).imp_right (has_next hi (by simp [WillRestart]))
  | inside | having | replying | powering =>
    cases h
    exact fun hflag => (hs hflag).imp_right (has_next hi (by simp [WillRestart]))
  | editing => cases ok <;> cases h <;> exact fun hflag => (hs hflag).imp_right (has_next hi (by simp [WillRestart]))
  | flagging =>
    obtain ⟨-, rfl⟩ := whenFree_some h
    exact fun _ => .inr ((has_set hi).mpr (.inr (.inl rfl)))
  | checking =>
    obtain ⟨-, rfl⟩ := whenFree_some h
    intro hflag
    have hflag' : s.nmRestartNeeded = true := hflag
    simp only [hflag']
    exact (hs hflag).imp_right (has_next hi fun _ => .inr (.inr (.inl rfl)))
  | restarting =>
    cases ok with
    | true =>
      cases h
      exact fun _ => .inr ((has_set hi).mpr (.inr (.inr (.inr (.inr rfl)))))
    | false =>
      cases h
      exact fun _ => .inl rfl
  | starting =>
    cases ok with
    | true =>
      cases h
      exact fun hflag => absurd hflag Bool.false_ne_true
    | false =>
      cases h
      exact fun _ => .inl rfl

end

/-! ## The invariant -/

structure MainInv (s : Gbweb) : Prop where
  owns : ∀ m, Owns (s.owner m) (Inside m) s.pool
  kept : ∀ m, s.kept m = true → m = .flc
  restarts : Has Restarts s.pool → s.nmRestartNeeded = true
  inEffect : s.active = some s.stored ∨ s.nmRestartNeeded = true ∨ Has (· = .flagging) s.pool
  due : ∀ p, s.due p = true → s.needed p = true ∧ Has WillPower s.pool
  flagged : s.nmRestartNeeded = true → s.restartFailed = true ∨ Has WillRestart s.pool

/-- A thread at rest is outside of everything, and so is where it goes. -/
theorem mainInv_leave {s : Gbweb} (hs : MainInv s) {i : Nat} {t t' : ServePc} (hi : s.pool[i]? = some t)
    (ht : t.AtRest) (hheld : t'.held = none) (hrestart : ¬ Restarts t') :
    MainInv { s with pool := s.pool.set i t' } := by
  have hrest : t.held = none ∧ t ≠ .flagging ∧ ¬ WillPower t := by
    rcases ht with rfl | rfl <;> simp [held, WillPower, WillRestart]
  obtain ⟨hnone, hflagging, hpower⟩ := hrest
  constructor
  · exact owns_keep hs.owns hi (hheld.trans hnone.symm)
  · exact hs.kept
  · exact fun hr => hs.restarts (has_before hi hrestart hr)
  · exact hs.inEffect.imp_right (Or.imp_right (has_next hi fun he => absurd he hflagging))
  · exact fun p hp => (hs.due p hp).imp_right (has_next hi fun hw => absurd hw hpower)
  · exact fun hflag => (hs.flagged hflag).imp_right (has_next hi fun hw => absurd (.inl hw) hpower)

theorem firstOf_outside (call : Option (Outcomes × AppReq)) :
    (firstOf call).held = none ∧ ¬ Restarts (firstOf call) := by
  have hnext (ms : List Mutex) : (next ms).held = none ∧ ¬ Restarts (next ms) := by
    cases ms <;> simp [next, held, Restarts]
  rcases call with _ | ⟨o, r⟩
  · exact hnext []
  · show (r.first o).held = none ∧ ¬ Restarts (r.first o)
    unfold AppReq.first
    split
    · split <;> simp [held, Restarts]
    · simp [held, Restarts]
    · simp [held, Restarts]
    · simp [held, Restarts]
    · exact hnext _

theorem mainInv_step (s : Gbweb) (e : MainEv) (s' : Gbweb) (hs : MainInv s) (h : mainStep s e = some s') :
    MainInv s' := by
  cases e with
  | accept i call =>
    obtain ⟨hi, he⟩ := Option.ite_none_right_eq_some.mp h
    cases he
    exact mainInv_leave hs hi (.inl rfl) (firstOf_outside call).1 (firstOf_outside call).2
  | work i m =>
    obtain ⟨hi, he⟩ := Option.ite_none_right_eq_some.mp h
    cases he
    exact mainInv_leave hs hi (.inr rfl) rfl (by simp [Restarts])
  | step i ok =>
    obtain ⟨t, hi, hmove⟩ := Option.bind_eq_some_iff.mp h
    exact ⟨owns_move hi hmove hs.owns, kept_move hi hmove hs.kept, restarts_move hi hmove hs.owns hs.restarts,
      inEffect_move hi hmove hs.restarts hs.inEffect, due_move hi hmove hs.due, flagged_move hi hmove hs.flagged⟩

/-! ## Runs -/

/-- The threads have been created; the network is up. -/
structure Gbweb.Fresh (s : Gbweb) : Prop where
  atRest : ∀ t ∈ s.pool, t.AtRest
  free : ∀ m, s.owner m = none ∧ s.kept m = false
  noFlag : s.nmRestartNeeded = false ∧ ∀ p, s.due p = false
  up : s.active = some s.stored

/-- Every thread waits for a request, every worker for its time. -/
def Gbweb.Idle (s : Gbweb) : Prop := ∀ t ∈ s.pool, t.AtRest

theorem not_has_of_idle {s : Gbweb} (hs : s.Idle) {p : ServePc → Prop} (hp : ∀ t, t.AtRest → ¬ p t) :
    ¬ Has p s.pool := by
  rintro ⟨t, ht, hpt⟩
  exact hp t (hs t ht) hpt

theorem Gbweb.Fresh.mainInv {s : Gbweb} (hs : s.Fresh) : MainInv s where
  owns m i := by
    rw [(hs.free m).1]
    refine iff_of_false (fun h => nomatch h) ?_
    rintro ⟨t, ht, hin⟩
    rcases hs.atRest t (List.mem_of_getElem? ht) with rfl | rfl <;> cases hin
  kept m hm := by
    rw [(hs.free m).2] at hm
    cases hm
  restarts h := absurd h (not_has_of_idle hs.atRest (by rintro t (rfl | rfl) <;> simp [Restarts]))
  inEffect := .inl hs.up
  due p hp := by
    rw [hs.noFlag.2 p] at hp
    cases hp
  flagged hflag := by
    rw [hs.noFlag.1] at hflag
    cases hflag

/-- **No change of the network is lost.**  Whatever requests come and however the threads take
turns: a stored profile that is not in effect is flagged, or about to be.  When all threads are at
rest, every reboot or switch-off that was granted has been run since; and the stored profile is in
effect, unless the last restart has failed. -/
theorem network_change_takes_effect (s : Gbweb) (hs : s.Fresh) (es : List MainEv) (s' : Gbweb)
    (hrun : run mainStep s es = some s') :
    (s'.active = some s'.stored ∨ s'.nmRestartNeeded = true ∨ Has (· = .flagging) s'.pool) ∧
      (s'.Idle → (∀ p, s'.due p = false) ∧ (s'.active = some s'.stored ∨ s'.restartFailed = true)) := by
  have hinv := run_keeps mainInv_step s s' es hs.mainInv hrun
  refine ⟨hinv.inEffect, fun hidle => ⟨fun p => ?_, ?_⟩⟩
  · rw [← Bool.not_eq_true]
    intro hp
    exact not_has_of_idle hidle (by rintro t (rfl | rfl) <;> simp [WillPower, WillRestart]) (hinv.due p hp).2
  · rcases hinv.inEffect with heff | hflag | hflagging
    · exact .inl heff
    · refine .inr ((hinv.flagged hflag).resolve_right (not_has_of_idle hidle ?_))
      rintro t (rfl | rfl) <;> simp [WillRestart]
    · exact absurd hflagging (not_has_of_idle hidle (by rintro t (rfl | rfl) <;> simp))

/-- Two threads of requests and a worker, and a network that is set up by itself. -/
def freshGbweb : Gbweb where
  remote := fun _ => true
  nmRestartNeeded := false
  needed := fun _ => false
  owner := fun _ => none
  kept := fun _ => false
  stored := .auto
  active := some .auto
  restartFailed := false
  due := fun _ => false
  pool := [.accepting, .accepting, .resting]

theorem freshGbweb_fresh : freshGbweb.Fresh where
  atRest := by simp [freshGbweb, ServePc.AtRest]
  free _ := ⟨rfl, rfl⟩
  noFlag := ⟨rfl, fun _ => rfl⟩
  up := rfl

def homeText : CStr :=
  "\x7b\"ip4\":\"192\",\"ip3\":\"168\",\"ip2\":\"0\",\"ip1\":\"7\",".toList ++
    "\"gw4\":\"192\",\"gw3\":\"168\",\"gw2\":\"0\",\"gw1\":\"1\",\"dhcp\":false\x7d".toList

/-- The second thread passes the flag between the change and the flag, after the worker has kept it
waiting; the first one restarts the network, and the second one is asked to reboot. -/
def homeRun : List MainEv :=
  [.accept 0 (some (quietOutcomes, .setLan (cJsonParse homeText))), .step 0 true, .step 0 true,
    .accept 1 (some (quietOutcomes, .getCoolersState)), .step 1 true, .step 1 true, .work 2 .appData, .step 2 true,
    .step 1 true, .step 2 true, .step 1 true, .step 1 true, .step 0 true, .accept 1 (some (quietOutcomes, .reboot)),
    .step 1 true, .step 0 true, .step 1 true, .step 0 true, .step 0 true, .step 0 true, .step 0 true, .step 1 true,
    .step 1 true]

theorem network_change_takes_effect_home :
    ∃ s', run mainStep freshGbweb homeRun = some s' ∧ s'.needed .reboot = true ∧ s'.due .reboot = false ∧
      s'.active = some (.manual "192.168.0.7".toList "192.168.0.1".toList) := by
  have hpool : (run mainStep freshGbweb homeRun).map Gbweb.pool = some [.accepting, .accepting, .resting] := by
    decide +kernel
  have hseen : (run mainStep freshGbweb homeRun).map (fun s => (s.needed .reboot, s.stored, s.restartFailed)) =
      some (true, .manual "192.168.0.7".toList "192.168.0.1".toList, false) := by decide +kernel
  obtain ⟨s', hrun, hidle⟩ := Option.map_eq_some_iff.mp hpool
  rw [hrun, Option.map_some, Option.some.injEq, Prod.mk.injEq, Prod.mk.injEq] at hseen
  obtain ⟨hneeded, hstored, hfailed⟩ := hseen
  obtain ⟨hdue, heff⟩ := (network_change_takes_effect freshGbweb freshGbweb_fresh homeRun s' hrun).2 (by
    intro t ht
    rw [hidle] at ht
    revert t
    simp [ServePc.AtRest])
  refine ⟨s', hrun, hneeded, hdue .reboot, hstored ▸ heff.resolve_right ?_⟩
  rw [hfailed]
  exact Bool.false_ne_true

/-! ## The threads come to rest -/

/-- How many actions a thread is away from its rest, at most. -/
def ServePc.rank : ServePc → Nat
  | .accepting | .resting => 0
  | .powering | .having _ => 1
  | .starting | .wanting _ => 2
  | .restarting => 3
  | .checking => 4
  | .replying => 5
  | .power _ | .flagging | .rejecting => 6
  | .editing _ => 7
  | .settings _ => 8
  | .inside _ ms => 2 * ms.length + 6
  | .waiting _ ms => 2 * ms.length + 7

theorem rank_next (ms : List Mutex) : (next ms).rank = 2 * ms.length + 5 := by
  cases ms with
  | nil => rfl
  | cons m ms =>
    simp only [next, rank, List.length_cons]
    omega

theorem rank_move {s s' : Gbweb} {i : Nat} {ok : Bool} {t : ServePc} (h : serveMove s i ok t = some s') :
    ∃ t', s'.pool = s.pool.set i t' ∧ t'.rank < t.rank := by
  cases t with
  | accepting | resting => cases h
  | waiting | settings | wanting | rejecting | flagging | power =>
    obtain ⟨-, rfl⟩ := whenFree_some h
    exact ⟨_, rfl, by simp [rank]⟩
  | checking =>
    obtain ⟨-, rfl⟩ := whenFree_some h
    exact ⟨_, rfl, by cases s.nmRestartNeeded <;> simp [rank]⟩
  | inside m ms =>
    cases h
    exact ⟨_, rfl, by rw [rank_next, rank]; omega⟩
  | editing | restarting | starting => cases ok <;> cases h <;> exact ⟨_, rfl, by simp [rank]⟩
  | replying | having | powering =>
    cases h
    exact ⟨_, rfl, by simp [rank]⟩

theorem length_le_sum_rank (s : Gbweb) (es : List MainEv) (s' : Gbweb) (hes : ∀ e ∈ es, ∃ i ok, e = .step i ok)
    (hrun : run mainStep s es = some s') : es.length ≤ (s.pool.map rank).sum := by
  induction es generalizing s with
  | nil => exact Nat.zero_le _
  | cons e es ih =>
    obtain ⟨⟨i, ok, rfl⟩, hrest⟩ := List.forall_mem_cons.mp hes
    obtain ⟨s₁, hstep, hrun⟩ := Option.bind_eq_some_iff.mp hrun
    obtain ⟨t, hi, hmove⟩ := Option.bind_eq_some_iff.mp hstep
    obtain ⟨t', hpool, hrank⟩ := rank_move hmove
    have hlt := sum_set_lt rank hi hrank
    have := ih s₁ hrest hrun
    rw [hpool] at this
    rw [List.length_cons]
    omega

theorem rank_firstOf (call : Option (Outcomes × AppReq)) : (firstOf call).rank ≤ 15 := by
  rcases call with _ | ⟨o, r⟩
  · simp [firstOf, rank]
  · show (r.first o).rank ≤ 15
    unfold AppReq.first
    split
    · split <;> simp [rank]
    · simp [rank]
    · simp [rank]
    · simp [rank]
    · rw [rank_next]
      have := length_mutexes_le o r
      omega

def RanksLe (s : Gbweb) : Prop := ∀ t ∈ s.pool, t.rank ≤ 15

theorem ranksLe_set {s : Gbweb} (hs : RanksLe s) (i : Nat) {t' : ServePc} (ht' : t'.rank ≤ 15) :
    ∀ t ∈ s.pool.set i t', t.rank ≤ 15 :=
  forall_set (fun _ x _ hx => hs x (List.mem_of_getElem? hx)) ht'

theorem ranksLe_step (s : Gbweb) (e : MainEv) (s' : Gbweb) (hs : RanksLe s) (h : mainStep s e = some s') :
    RanksLe s' := by
  cases e with
  | accept i call =>
    obtain ⟨-, he⟩ := Option.ite_none_right_eq_some.mp h
    cases he
    exact ranksLe_set hs i (rank_firstOf call)
  | work i m =>
    obtain ⟨-, he⟩ := Option.ite_none_right_eq_some.mp h
    cases he
    exact ranksLe_set hs i (by simp [rank])
  | step i ok =>
    obtain ⟨t, hi, hmove⟩ := Option.bind_eq_some_iff.mp h
    obtain ⟨t', hpool, hrank⟩ := rank_move hmove
    rw [RanksLe, hpool]
    exact ranksLe_set hs i (hrank.le.trans (hs t (List.mem_of_getElem? hi)))

/-- The request whose handler keeps `flc_mutex`. -/
def MainEv.KeepsFlc : MainEv → Prop
  | .accept _ (some (_, r)) => r.KeepsFlc
  | _ => False

def NothingKept (s : Gbweb) : Prop := (∀ m, s.kept m = false) ∧ ¬ Has (· = .rejecting) s.pool

theorem firstOf_ne_rejecting {call : Option (Outcomes × AppReq)} (i : Nat) (hcall : ¬ (MainEv.accept i call).KeepsFlc) :
    firstOf call ≠ .rejecting := by
  rcases call with _ | ⟨o, r⟩
  · exact nofun
  · show r.first o ≠ .rejecting
    unfold AppReq.first
    split
    · split <;> simp
    · simp
    · simp
    · exact absurd rfl hcall
    · rcases next_eq (r.mutexes o) with he | ⟨_, _, he⟩ <;> simp [he]

theorem nothingKept_step (s : Gbweb) (e : MainEv) (s' : Gbweb) (hs : NothingKept s) (he : ¬ e.KeepsFlc)
    (h : mainStep s e = some s') : NothingKept s' := by
  cases e with
  | accept i call =>
    obtain ⟨hi, hs'⟩ := Option.ite_none_right_eq_some.mp h
    cases hs'
    exact ⟨hs.1, fun hr => hs.2 (has_before hi (firstOf_ne_rejecting i he) hr)⟩
  | work i m =>
    obtain ⟨hi, hs'⟩ := Option.ite_none_right_eq_some.mp h
    cases hs'
    exact ⟨hs.1, fun hr => hs.2 (has_before hi (by simp) hr)⟩
  | step i ok =>
    obtain ⟨t, hi, hmove⟩ := Option.bind_eq_some_iff.mp h
    cases t with
    | accepting | resting => cases hmove
    | rejecting => exact absurd (has_of_getElem? (p := (· = .rejecting)) hi rfl) hs.2
    | waiting | settings | wanting | flagging | power =>
      obtain ⟨-, rfl⟩ := whenFree_some hmove
      exact ⟨hs.1, fun hr => hs.2 (has_before hi (by simp) hr)⟩
    | checking =>
      obtain ⟨-, rfl⟩ := whenFree_some hmove
      exact ⟨hs.1, fun hr => hs.2 (has_before hi (by cases s.nmRestartNeeded <;> simp) hr)⟩
    | inside m ms =>
      cases hmove
      refine ⟨hs.1, fun hr => hs.2 (has_before hi ?_ hr)⟩
      rcases next_eq ms with he | ⟨_, _, he⟩ <;> simp [he]
    | replying | having | powering =>
      cases hmove
      exact ⟨hs.1, fun hr => hs.2 (has_before hi (by simp) hr)⟩
    | editing | restarting | starting =>
      cases ok <;> cases hmove <;> exact ⟨hs.1, fun hr => hs.2 (has_before hi (by simp) hr)⟩

/-- A thread whose mutex is free goes on. -/
theorem step_some {s : Gbweb} {i : Nat} {t : ServePc} (hi : s.pool[i]? = some t) (ht : ¬ t.AtRest)
    (hfree : ∀ m, t.wants = some m → s.owner m = none ∧ s.kept m = false) (ok : Bool) :
    ∃ s', mainStep s (.step i ok) = some s' := by
  simp only [mainStep, hi, Option.bind_some]
  cases t with
  | accepting => exact absurd (.inl rfl) ht
  | resting => exact absurd (.inr rfl) ht
  | waiting | settings | wanting | rejecting | flagging | power | checking =>
    rw [serveMove, whenFree, if_pos (hfree _ rfl)]
    exact ⟨_, rfl⟩
  | editing | restarting | starting => cases ok <;> exact ⟨_, rfl⟩
  | inside | replying | having | powering => exact ⟨_, rfl⟩

/-- `app_data_mutex` is the one that is taken inside another. -/
def Mutex.level (m : Mutex) : Nat := if m = .appData then 1 else 0

theorem level_lt {t : ServePc} {m k : Mutex} (hwants : t.wants = some m) (hheld : Inside k t) : k.level < m.level := by
  cases t with
  | flagging =>
    cases hwants
    cases hheld
    decide
  | waiting | rejecting | settings | power | checking | wanting => cases hheld
  | _ => cases hwants

theorem level_le (m : Mutex) : m.level ≤ 1 := by
  unfold Mutex.level
  split <;> omega

/-- A thread that wants a mutex and cannot have it in the end wants one that was kept. -/
theorem goes_on_or_stuck {s : Gbweb} (hs : MainInv s) :
    (∃ i, ∀ ok, ∃ s', mainStep s (.step i ok) = some s') ∨
      ∀ t ∈ s.pool, t.AtRest ∨ t.wants = some .flc ∧ s.kept .flc = true := by
  by_cases hall : ∀ t ∈ s.pool, t.AtRest ∨ t.wants = some .flc ∧ s.kept .flc = true
  · exact .inr hall
  · refine .inl ?_
    push Not at hall
    obtain ⟨t, ht, hrest, hflc⟩ := hall
    obtain ⟨i, hi⟩ := List.mem_iff_getElem?.mp ht
    obtain ⟨j, u, hj, hu, howner⟩ :=
      exists_unblocked hs.owns (fun _ _ _ => level_lt) level_le hi
    refine ⟨j, step_some hj ?_ fun m hm => ⟨howner m hm, ?_⟩⟩
    · rcases hu with rfl | ⟨k, hk⟩
      · rw [hi, Option.some.injEq] at hj
        exact hj ▸ hrest
      · rintro (rfl | rfl) <;> cases hk
    · by_contra hkept
      rw [Bool.not_eq_false] at hkept
      obtain rfl := hs.kept m hkept
      rcases hu with rfl | ⟨k, hk⟩
      · rw [hi, Option.some.injEq] at hj
        exact hflc (hj ▸ hm) hkept
      · exact absurd (level_lt hm hk) (by simp [Mutex.level])

/-- **No deadlock, and an end.**  Whatever is asked and however the threads take turns, some thread
goes on, however its command ends, until all are at rest but those that wait for an `flc_mutex`
which a request has kept; without such a request none is kept.  Without new requests there are at
most fifteen actions a thread. -/
theorem request_threads_come_to_rest (s : Gbweb) (hs : s.Fresh) (es : List MainEv) (s' : Gbweb)
    (hrun : run mainStep s es = some s') :
    ((∃ i, ∀ ok, ∃ s'', mainStep s' (.step i ok) = some s'') ∨
        ∀ t ∈ s'.pool, t.AtRest ∨ t.wants = some .flc ∧ s'.kept .flc = true) ∧
      ((∀ e ∈ es, ¬ e.KeepsFlc) → ∀ m, s'.kept m = false) ∧
      ∀ steps s'', (∀ e ∈ steps, ∃ i ok, e = .step i ok) → run mainStep s' steps = some s'' →
        steps.length ≤ 15 * s'.pool.length := by
  refine ⟨goes_on_or_stuck (run_keeps mainInv_step s s' es hs.mainInv hrun), fun hes => ?_,
    fun steps s'' hsteps hrun' => ?_⟩
  · have hfresh : NothingKept s := ⟨fun m => (hs.free m).2,
      not_has_of_idle hs.atRest (by rintro t (rfl | rfl) <;> simp)⟩
    exact (run_inv nothingKept_step s s' es hfresh (along_of_forall s es hes) hrun).1
  · have hranks : RanksLe s := fun t ht => by rcases hs.atRest t ht with rfl | rfl <;> simp [rank]
    have hle := run_keeps ranksLe_step s s' es hranks hrun
    exact (length_le_sum_rank s' steps s'' hsteps hrun').trans (sum_map_le rank hle)

/-- A body that is rejected, and behind it a request for the state of the lamp. -/
def rejectedRun : List MainEv :=
  [.accept 0 (some (quietOutcomes, .setFlcChPwr none)), .accept 1 (some (quietOutcomes, .getFlcStatus)),
    .step 0 true, .step 0 true, .step 0 true, .step 0 true]

/-- In the middle of the run above somebody goes on; in this one nobody can any more. -/
theorem request_threads_come_to_rest_home :
    (∃ s', run mainStep freshGbweb (homeRun.take 8) = some s' ∧ (∀ m, s'.kept m = false) ∧
      (∃ i, ∀ ok, ∃ s'', mainStep s' (.step i ok) = some s'') ∧
      ∀ steps s'', (∀ e ∈ steps, ∃ i ok, e = .step i ok) → run mainStep s' steps = some s'' →
        steps.length ≤ 45) ∧
    ∃ s', run mainStep freshGbweb rejectedRun = some s' ∧ s'.kept .flc = true ∧
      ∀ t ∈ s'.pool, t.AtRest ∨ t.wants = some .flc := by
  refine ⟨?_, ?_⟩
  · have hpool : (run mainStep freshGbweb (homeRun.take 8)).map Gbweb.pool =
        some [.flagging, .replying, .having .appData] := by decide +kernel
    obtain ⟨s', hrun, hbusy⟩ := Option.map_eq_some_iff.mp hpool
    obtain ⟨hgoes, hkept, hend⟩ := request_threads_come_to_rest freshGbweb freshGbweb_fresh _ s' hrun
    refine ⟨s', hrun, hkept ?_, hgoes.resolve_right fun hstuck => ?_, fun steps s'' hsteps hrun' => ?_⟩
    · simp [homeRun, MainEv.KeepsFlc, AppReq.KeepsFlc]
    · rcases hstuck .flagging (by rw [hbusy]; exact List.mem_cons_self) with (h | h) | ⟨h, -⟩ <;> cases h
    · have := hend steps s'' hsteps hrun'
      rwa [hbusy] at this
  · have hpool : (run mainStep freshGbweb rejectedRun).map Gbweb.pool =
        some [.accepting, .waiting .flc [], .resting] := by decide +kernel
    have hkept : (run mainStep freshGbweb rejectedRun).map (·.kept .flc) = some true := by decide +kernel
    obtain ⟨s', hrun, hpool⟩ := Option.map_eq_some_iff.mp hpool
    rw [hrun, Option.map_some, Option.some.injEq] at hkept
    have hrest := (request_threads_come_to_rest freshGbweb freshGbweb_fresh _ s' hrun).1.resolve_left ?_
    · exact ⟨s', hrun, hkept, fun t ht => (hrest t ht).imp_right And.left⟩
    · rintro ⟨i, hgoes⟩
      obtain ⟨s'', hstep⟩ := hgoes true
      obtain ⟨t, hi, hmove⟩ := Option.bind_eq_some_iff.mp hstep
      have ht := List.mem_of_getElem? hi
      rw [hpool] at ht
      simp only [List.mem_cons, List.not_mem_nil, or_false] at ht
      rcases ht with rfl | rfl | rfl
      · cases hmove
      · obtain ⟨⟨-, hfree⟩, -⟩ := whenFree_some hmove
        rw [hkept] at hfree
        cases hfree
      · cases hmove

/-! ## The signals -/

inductive Signal where
  | int | quit | term | hup
  deriving DecidableEq, Repr

/-- Where `termination_waiter` is. -/
inductive WaiterPc where
  | asleep
  /-- behind `if(sig_num)` -/
  | caught
  /-- in `app_read_config`, behind which `sig_num` is cleared -/
  | reading
  | ended
  deriving DecidableEq, Repr

/-- `sigNum` is none for 0. -/
structure Waiter where
  sigNum : Option Signal
  pc : WaiterPc
  deriving DecidableEq, Repr

inductive WaiterEv where
  /-- `sig_hdl` -/
  | signal (g : Signal)
  /-- the next action of the waiter -/
  | look
  deriving DecidableEq, Repr

def waiterStep (w : Waiter) : WaiterEv → Waiter
  | .signal g => { w with sigNum := some g }
  | .look =>
    match w.pc with
    | .asleep => if w.sigNum = none then w else { w with pc := .caught }
    | .caught =>
      match w.sigNum with
      | none => { w with pc := .asleep }
      | some .hup => { w with pc := .reading }
      | some _ => { w with pc := .ended }
    | .reading => ⟨none, .asleep⟩
    | .ended => w

/-- How many looks end the server once a signal to end is there; while the file is read none does. -/
def WaiterPc.looks : WaiterPc → Option Nat
  | .asleep => some 2
  | .caught => some 1
  | .reading => none
  | .ended => some 0

/-- The waiter goes on, and will not end by the signal that is there. -/
def Waiter.Deaf (w : Waiter) : Prop :=
  w.pc ≠ .ended ∧ (w.pc = .reading ∨ w.sigNum = none ∨ w.sigNum = some .hup)

/-- No signal to end the server. -/
def Quiet (e : WaiterEv) : Prop := e = .look ∨ e = .signal .hup

theorem deaf_step {w : Waiter} (hw : w.Deaf) {e : WaiterEv} (he : Quiet e) : (waiterStep w e).Deaf := by
  obtain ⟨sigNum, pc⟩ := w
  obtain ⟨hpc, hsig⟩ := hw
  rcases he with rfl | rfl
  · cases pc with
    | asleep =>
      rcases hsig with h | h | h
      · cases h
      · obtain rfl : sigNum = none := h
        exact ⟨by decide, by decide⟩
      · obtain rfl : sigNum = some .hup := h
        exact ⟨by decide, by decide⟩
    | caught =>
      rcases hsig with h | h | h
      · cases h
      · obtain rfl : sigNum = none := h
        exact ⟨by decide, by decide⟩
      · obtain rfl : sigNum = some .hup := h
        exact ⟨by decide, by decide⟩
    | reading => exact ⟨by simp [waiterStep], .inr (.inl rfl)⟩
    | ended => exact absurd rfl hpc
  · exact ⟨hpc, .inr (.inr rfl)⟩

theorem deaf_run {w : Waiter} (hw : w.Deaf) {es : List WaiterEv} (hes : ∀ e ∈ es, Quiet e) :
    (es.foldl waiterStep w).Deaf := by
  induction es generalizing w with
  | nil => exact hw
  | cons e es ih =>
    obtain ⟨he, hes⟩ := List.forall_mem_cons.mp hes
    exact ih (deaf_step hw he) hes

theorem ended_run (sigNum : Option Signal) (es : List WaiterEv) :
    (es.foldl waiterStep ⟨sigNum, .ended⟩).pc = .ended := by
  induction es generalizing sigNum with
  | nil => rfl
  | cons e es ih => cases e <;> exact ih _

section
variable {g : Signal} (hg : g ≠ .hup) {es : List WaiterEv} (hes : ∀ e ∈ es, Quiet e)

include hg hes

theorem caught_ended_iff : (es.foldl waiterStep ⟨some g, .caught⟩).pc = .ended ↔
    1 ≤ (es.takeWhile (· = .look)).length := by
  cases es with
  | nil => simp
  | cons e es =>
    obtain ⟨he, hrest⟩ := List.forall_mem_cons.mp hes
    rcases he with rfl | rfl
    · have hstep : waiterStep ⟨some g, .caught⟩ .look = ⟨some g, .ended⟩ := by
        cases g <;> first | rfl | exact absurd rfl hg
      rw [List.foldl_cons, hstep]
      exact iff_of_true (ended_run _ es) (by simp)
    · exact iff_of_false (deaf_run (w := ⟨some .hup, .caught⟩) ⟨by simp, .inr (.inr rfl)⟩ hrest).1 (by simp)

theorem asleep_ended_iff : (es.foldl waiterStep ⟨some g, .asleep⟩).pc = .ended ↔
    2 ≤ (es.takeWhile (· = .look)).length := by
  cases es with
  | nil => simp
  | cons e es =>
    obtain ⟨he, hrest⟩ := List.forall_mem_cons.mp hes
    rcases he with rfl | rfl
    · refine (caught_ended_iff hg hrest).trans ?_
      simp
    · exact iff_of_false (deaf_run (w := ⟨some .hup, .asleep⟩) ⟨by simp, .inr (.inr rfl)⟩ hrest).1 (by simp)

end

/-- **When a signal to end the server is obeyed**, without another one behind it: exactly when no
file is being read, and the waiter looks at it as often as it has to before a `SIGHUP` comes. -/
theorem termination_obeyed_iff (w : Waiter) (g : Signal) (hg : g ≠ .hup) (es : List WaiterEv)
    (hes : ∀ e ∈ es, Quiet e) :
    ((WaiterEv.signal g :: es).foldl waiterStep w).pc = .ended ↔
      ∃ n, w.pc.looks = some n ∧ n ≤ (es.takeWhile (· = .look)).length := by
  obtain ⟨sigNum, pc⟩ := w
  show (es.foldl waiterStep ⟨some g, pc⟩).pc = .ended ↔ _
  cases pc with
  | ended => exact iff_of_true (ended_run _ es) ⟨0, rfl, Nat.zero_le _⟩
  | reading =>
    refine iff_of_false (deaf_run ⟨by simp, .inl rfl⟩ hes).1 ?_
    rintro ⟨n, hn, -⟩
    cases hn
  | caught =>
    rw [caught_ended_iff hg hes]
    simp [WaiterPc.looks]
  | asleep =>
    rw [asleep_ended_iff hg hes]
    simp [WaiterPc.looks]

/-- A `SIGTERM` is lost to the `SIGHUP` behind it. -/
theorem termination_lost_to_reload :
    ¬ ([WaiterEv.signal .term, .look, .signal .hup, .look, .look, .look].foldl waiterStep
      ⟨none, .asleep⟩).pc = .ended := by
  rw [termination_obeyed_iff ⟨none, .asleep⟩ .term (by decide) _ (by simp [Quiet])]
  rintro ⟨n, hn, hle⟩
  cases hn
  exact absurd hle (by decide)

end Growbox

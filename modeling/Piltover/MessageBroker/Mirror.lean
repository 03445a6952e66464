/- source: piltover/message_brokers/base_broker.py, piltover/session/session.py,
     piltover/session/session_manager.py
   digest: The subscription tables against the sessions they stand for, along every run. -/

import Piltover.Foundation.Runs
import Piltover.MessageBroker.Views

set_option autoImplicit false

namespace Piltover.MessageBroker

open Piltover.Foundation
open Piltover.Foundation.Runs

/-- What a refresh finds out before it turns to the channels. -/
inductive Renewal
  | skipped
  | raised
  | dropped
  | renewed (session : Session)
  deriving DecidableEq

/-- The way that `refresh_auth_maybe` takes through its checks. -/
def Session.renewal (o : Session) (force : Bool) (env : Readings) : Renewal :=
  if o.authData.isNone then .skipped
  else match o.rereadAuthData force env with
    | none => .raised
    | some auth =>
      if auth.authKeyId.isNone || auth.permAuthKeyId.isNone then .dropped
      else match { o with authData := some auth }.reauthorize force env with
        | none => .dropped
        | some session => .renewed session

structure Mirrors (o : Session) (v : View) (current : Finset Nat) : Prop where
  users : ∀ u ∈ v.users, o.userId = some u
  auths : ∀ a ∈ v.auths, o.authId = some a
  channels : v.channels ⊆ current
  internalPush : ∀ u ∈ v.internalPush, o.isInternalPush = true ∧ o.userId = some u
  connected : ∀ u, o.connected = true → o.userId = some u → u ∈ v.users

/-- The server with the history that the tables have to reflect: the channels of each session when
they were last loaded, with every later `ChannelSubscribe` of its user applied, and the session
that the last event finalized. -/
structure Traced where
  server : Server
  current : SessionRef → Finset Nat
  finalized : Option SessionRef

namespace Server

def userId (t : Server) (r : SessionRef) : Option Nat := (t.objects[r]?).bind Session.userId

def InNoTable (t : Server) (r : SessionRef) : Prop :=
  t.broker.view r = View.empty ∧ r ∉ t.broker.subscribedSessions.entries.map Sigma.snd ∧
    r ∉ t.sessions.entries.map Sigma.snd

instance (t : Server) (r : SessionRef) : Decidable (t.InNoTable r) :=
  inferInstanceAs (Decidable (_ ∧ _ ∧ _))

def loaded (t : Server) (o : Session) (env : Readings) : Finset Nat := (t.live o).loaded env

end Server

namespace Traced

def start : Traced := ⟨Server.start, fun _ => ∅, none⟩

def refreshed (t : Traced) (r : SessionRef) (o : Session) (force : Bool) (env : Readings) :
    Finset Nat :=
  match o.renewal force env with
  | .skipped | .raised => t.current r
  | .dropped => ∅
  | .renewed session =>
    if session.channelsAreStale env then t.server.loaded session env else t.current r

def currentAfter (t : Traced) : Event → SessionRef → Finset Nat
  | .refreshAuthMaybe r force env =>
    match t.server.objects[r]? with
    | none => t.current
    | some o => Function.update t.current r (t.refreshed r o force env)
  | .resetAuth r => Function.update t.current r ∅
  | .setSessionInternalPush keyId sessionId env =>
    match t.server.sessions.lookup (keyId, sessionId) with
    | none => t.current
    | some r =>
      match t.server.objects[r]? with
      | none => t.current
      | some o => Function.update t.current r (t.refreshed r o.withInternalPush true env)
  | .channelSubscribe channelIds userIds subscribe => fun r =>
    if ∃ u ∈ userIds, t.server.userId r = some u then
      if subscribe then t.current r ∪ channelIds.toFinset else t.current r \ channelIds.toFinset
    else t.current r
  | _ => t.current

def step (t : Traced) (e : Event) : Option Traced :=
  (t.server.step e).map fun server =>
    { server := server
      current := t.currentAfter e
      finalized := match e with
        | .finalize r => some r
        | _ => none }

/-- The tables mirror the sessions, and a session just finalized is in none of them. -/
def Mirrored (t : Traced) : Prop :=
  (∀ r o, t.server.objects[r]? = some o → Mirrors o (t.server.broker.view r) (t.current r)) ∧
    ∀ r, t.finalized = some r → t.server.InNoTable r

/-- Forgetting the user of a session is safe when `session.channel_ids` knows every channel the
session is subscribed to, and the session is not registered for internal pushes. -/
def DropSafe (t : Traced) (r : SessionRef) (o : Session) : Prop :=
  (t.server.broker.view r).channels ⊆ o.channelIds ∧ (t.server.broker.view r).internalPush = ∅

/-- A refresh is safe when it does not move a session registered for internal pushes to another
user, and a channel that `session.channel_ids` does not know is among those it loads. -/
def RenewalSafe (t : Traced) (r : SessionRef) (o : Session) (env : Readings) : Renewal → Prop
  | .skipped | .raised => True
  | .dropped => t.DropSafe r o
  | .renewed session =>
    (session.channelsAreStale env = true →
      (t.server.broker.view r).channels ⊆ o.channelIds ∪ t.server.loaded session env) ∧
    (session.userId = o.userId ∨ (t.server.broker.view r).internalPush = ∅)

def RefreshSafe (t : Traced) (r : SessionRef) (o : Session) (force : Bool) (env : Readings) :
    Prop :=
  t.RenewalSafe r o env (o.renewal force env)

/-- Subscribing is safe when no channel of `session.channel_ids` has been left since it was
loaded. -/
def SubscribeSafe (t : Traced) (r : SessionRef) (o : Session) : Prop := o.channelIds ⊆ t.current r

/-- The subscription that follows the refresh of an internal-push session uses
`session.channel_ids` as it stands, unless the refresh has just replaced it. -/
def ResubscribeSafe (t : Traced) (r : SessionRef) (o : Session) (env : Readings) : Renewal → Prop
  | .raised | .dropped => True
  | .skipped => t.SubscribeSafe r o
  | .renewed session => session.channelsAreStale env = true ∨ t.SubscribeSafe r o

/-- Finalizing removes what the session knows about itself: its present keys and channels, and
nothing at all without an authorization key. -/
def FinalizeSafe (t : Traced) (r : SessionRef) (o : Session) : Prop :=
  match o.authKeyId with
  | none => t.server.InNoTable r
  | some _ =>
    (t.server.broker.view r).keys ⊆ keySet o.authKeyId ∪ keySet o.permAuthKeyId ∧
      (t.server.broker.view r).channels ⊆ o.channelIds

def UnsubscribeSafe (t : Traced) (channelIds userIds : List Nat) : Prop :=
  ∀ r ∈ t.server.broker.subscribedChannels.members channelIds.toFinset, ∀ u ∈ userIds,
    t.server.userId r = some u → u ∈ (t.server.broker.view r).users

def Safe (t : Traced) : Event → Prop
  | .connect r => ∀ o ∈ t.server.objects[r]?, t.SubscribeSafe r o
  | .refreshAuthMaybe r force env => ∀ o ∈ t.server.objects[r]?, t.RefreshSafe r o force env
  | .resetAuth r => ∀ o ∈ t.server.objects[r]?, t.DropSafe r o
  | .setSessionInternalPush keyId sessionId env =>
    ∀ r ∈ t.server.sessions.lookup (keyId, sessionId), ∀ o ∈ t.server.objects[r]?,
      t.RefreshSafe r o.withInternalPush true env ∧
        t.ResubscribeSafe r o.withInternalPush env (o.withInternalPush.renewal true env)
  | .channelSubscribe channelIds userIds subscribe =>
    subscribe = true ∨ t.UnsubscribeSafe channelIds userIds
  | .finalize r => ∀ o ∈ t.server.objects[r]?, t.FinalizeSafe r o
  | .getOrCreate _ _ _ | .disconnect _ | .cacheExpires _ => True

section Decidability

variable (t : Traced) (r : SessionRef) (o : Session) (env : Readings)

instance : Decidable (t.DropSafe r o) := inferInstanceAs (Decidable (_ ∧ _))

instance : ∀ n, Decidable (t.RenewalSafe r o env n)
  | .skipped | .raised => inferInstanceAs (Decidable True)
  | .dropped => inferInstanceAs (Decidable (t.DropSafe r o))
  | .renewed _ => inferInstanceAs (Decidable ((_ → _) ∧ (_ ∨ _)))

instance (force : Bool) : Decidable (t.RefreshSafe r o force env) :=
  inferInstanceAs (Decidable (t.RenewalSafe r o env (o.renewal force env)))

instance : Decidable (t.SubscribeSafe r o) :=
  inferInstanceAs (Decidable (o.channelIds ⊆ t.current r))

instance : ∀ n, Decidable (t.ResubscribeSafe r o env n)
  | .raised | .dropped => inferInstanceAs (Decidable True)
  | .skipped => inferInstanceAs (Decidable (t.SubscribeSafe r o))
  | .renewed _ => inferInstanceAs (Decidable (_ ∨ _))

instance : Decidable (t.FinalizeSafe r o) :=
  match h : o.authKeyId with
  | none => decidable_of_iff (t.server.InNoTable r) (by rw [FinalizeSafe, h])
  | some _ => decidable_of_iff
      ((t.server.broker.view r).keys ⊆ keySet o.authKeyId ∪ keySet o.permAuthKeyId ∧
        (t.server.broker.view r).channels ⊆ o.channelIds) (by rw [FinalizeSafe, h])

instance (channelIds userIds : List Nat) : Decidable (t.UnsubscribeSafe channelIds userIds) :=
  inferInstanceAs (Decidable (∀ _ ∈ _, ∀ _ ∈ _, _ → _))

instance : ∀ e, Decidable (t.Safe e)
  | .connect _ | .refreshAuthMaybe _ _ _ | .resetAuth _ | .finalize _ =>
    inferInstanceAs (Decidable (∀ _ ∈ _, _))
  | .setSessionInternalPush _ _ _ => inferInstanceAs (Decidable (∀ _ ∈ _, ∀ _ ∈ _, _ ∧ _))
  | .channelSubscribe _ _ _ => inferInstanceAs (Decidable (_ ∨ _))
  | .getOrCreate _ _ _ | .disconnect _ | .cacheExpires _ => inferInstanceAs (Decidable True)

end Decidability

end Traced

section OneSession

variable {o o' : Session} {v : View} {current : Finset Nat}

/-- Primary keys are positive, so `if not user_id` only ever stands for `None`. -/
structure Session.HasIds (o : Session) : Prop where
  user : ∀ u, o.userId = some u → 0 < u
  auth : ∀ a, o.authId = some a → 0 < a

private theorem mem_keySet {key : Option Nat} {k : Nat} (positive : 0 < k) (same : key = some k) :
    k ∈ keySet key := by
  rw [same, keySet_of_pos positive]
  exact Finset.mem_singleton_self k

private theorem eq_of_mem_keySet {key : Option Nat} {k : Nat} (member : k ∈ keySet key) :
    key = some k :=
  Option.mem_toFinset.mp (keySet_subset key member)

theorem mirrors_subscribe_iff (ids : o.HasIds) (mirrors : Mirrors o v current) (connected : Bool) :
    Mirrors { o with connected := connected } (v.subscribe o) current ↔ o.channelIds ⊆ current := by
  constructor
  · intro after c known
    exact after.channels (Finset.mem_union_right _ known)
  · intro safe
    refine ⟨?_, ?_, Finset.union_subset mirrors.channels safe, ?_, ?_⟩
    · intro u member
      rcases Finset.mem_union.mp member with before | new
      · exact mirrors.users u before
      · exact eq_of_mem_keySet new
    · intro a member
      rcases Finset.mem_union.mp member with before | new
      · exact mirrors.auths a before
      · exact eq_of_mem_keySet new
    · intro u member
      simp only [View.subscribe] at member
      split at member
      · rename_i push
        rcases Finset.mem_union.mp member with before | new
        · exact mirrors.internalPush u before
        · exact ⟨push, eq_of_mem_keySet new⟩
      · exact mirrors.internalPush u (Finset.mem_sdiff.mp member).1
    · intro u _ user
      exact Finset.mem_union_right _ (mem_keySet (ids.user u user) user)

theorem mirrors_resetAuth_iff (ids : o.HasIds) (mirrors : Mirrors o v current)
    (user : o'.userId = none) :
    Mirrors o' (v.resetAuth o) ∅ ↔ v.channels ⊆ o.channelIds ∧ v.internalPush = ∅ := by
  constructor
  · intro after
    refine ⟨Finset.sdiff_eq_empty_iff_subset.mp (Finset.subset_empty.mp after.channels), ?_⟩
    refine Finset.eq_empty_of_forall_notMem fun u member => ?_
    have named := (after.internalPush u member).2
    rw [user] at named
    cases named
  · rintro ⟨channels, push⟩
    refine ⟨?_, ?_, ?_, ?_, ?_⟩
    · intro u member
      obtain ⟨before, gone⟩ := Finset.mem_sdiff.mp member
      have named := mirrors.users u before
      exact absurd (mem_keySet (ids.user u named) named) gone
    · intro a member
      obtain ⟨before, gone⟩ := Finset.mem_sdiff.mp member
      have named := mirrors.auths a before
      exact absurd (mem_keySet (ids.auth a named) named) gone
    · exact Finset.subset_empty.mpr (Finset.sdiff_eq_empty_iff_subset.mpr channels)
    · intro u member
      have before : u ∈ v.internalPush := member
      rw [push] at before
      cases before
    · intro u _ named
      rw [user] at named
      cases named

theorem mirrors_reload_iff (mirrors : Mirrors o v current) (old new : Finset Nat) :
    Mirrors o (v.reload old new) new ↔ v.channels ⊆ old ∪ new := by
  have same : (v.reload old new).channels ⊆ new ↔ v.channels ⊆ old ∪ new := by
    simp only [View.reload, Finset.subset_iff, Finset.mem_union, Finset.mem_sdiff]
    grind
  constructor
  · intro after
    exact same.mp after.channels
  · intro safe
    exact ⟨mirrors.users, mirrors.auths, same.mpr safe, mirrors.internalPush, mirrors.connected⟩

/-- Moving to the user of `o'` leaves a session that was in the table of its user in that table. -/
theorem mem_users_resubscribe (ids' : o'.HasIds)
    (before : ∀ u, o.userId = some u → u ∈ v.users) (u : Nat) (named : o'.userId = some u) :
    u ∈ (v.resubscribe o o').users := by
  simp only [View.resubscribe]
  split
  · exact Finset.mem_union_right _ (mem_keySet (ids'.user u named) named)
  · rename_i same
    exact before u ((not_ne_iff.mp same).trans named)

theorem mirrors_resubscribe_iff (ids : o.HasIds) (ids' : o'.HasIds)
    (mirrors : Mirrors o v current) (push : o'.isInternalPush = o.isInternalPush)
    (connected : o'.connected = o.connected) :
    Mirrors o' (v.resubscribe o o') current ↔
      (o'.userId = o.userId ∨ v.internalPush = ∅) := by
  constructor
  · intro after
    refine or_iff_not_imp_right.mpr fun some => ?_
    obtain ⟨u, member⟩ := Finset.nonempty_iff_ne_empty.mpr some
    rw [(mirrors.internalPush u member).2]
    exact (after.internalPush u member).2
  · intro safe
    refine ⟨?_, ?_, mirrors.channels, ?_, ?_⟩
    · intro u member
      simp only [View.resubscribe] at member
      split at member
      · rcases Finset.mem_union.mp member with before | new
        · obtain ⟨before, gone⟩ := Finset.mem_sdiff.mp before
          have named := mirrors.users u before
          exact absurd (mem_keySet (ids.user u named) named) gone
        · exact eq_of_mem_keySet new
      · rename_i same
        rw [← not_ne_iff.mp same]
        exact mirrors.users u member
    · intro a member
      simp only [View.resubscribe] at member
      split at member
      · rcases Finset.mem_union.mp member with before | new
        · obtain ⟨before, gone⟩ := Finset.mem_sdiff.mp before
          have named := mirrors.auths a before
          exact absurd (mem_keySet (ids.auth a named) named) gone
        · exact eq_of_mem_keySet new
      · rename_i same
        rw [← not_ne_iff.mp same]
        exact mirrors.auths a member
    · intro u member
      have before := mirrors.internalPush u member
      rcases safe with same | none
      · exact ⟨push.trans before.1, same.trans before.2⟩
      · have member : u ∈ v.internalPush := member
        rw [none] at member
        cases member
    · intro u live named
      exact mem_users_resubscribe ids' (fun u => mirrors.connected u (connected ▸ live)) u named

theorem mirrors_renew_iff (ids : o.HasIds) (ids' : o'.HasIds) (mirrors : Mirrors o v current)
    (push : o'.isInternalPush = o.isInternalPush) (connected : o'.connected = o.connected)
    (old new : Finset Nat) :
    Mirrors o' ((v.reload old new).resubscribe o o') new ↔
      v.channels ⊆ old ∪ new ∧ (o'.userId = o.userId ∨ v.internalPush = ∅) := by
  have reloaded := mirrors_reload_iff mirrors old new
  constructor
  · intro after
    have channels : v.channels ⊆ old ∪ new := by
      refine reloaded.mp ⟨mirrors.users, mirrors.auths, after.channels, mirrors.internalPush, ?_⟩
      exact mirrors.connected
    exact ⟨channels,
      (mirrors_resubscribe_iff ids ids' (reloaded.mpr channels) push connected).mp after⟩
  · rintro ⟨channels, safe⟩
    exact (mirrors_resubscribe_iff ids ids' (reloaded.mpr channels) push connected).mpr safe

end OneSession

section Refresh

variable {o o' : Session} {force : Bool} {env : Readings}

/-- What the authorization part of a refresh leaves alone. -/
structure SameSession (o o' : Session) : Prop where
  sessionId : o'.sessionId = o.sessionId
  connected : o'.connected = o.connected
  internalPush : o'.isInternalPush = o.isInternalPush
  key : ∀ k, o'.authKeyId = some k → o.authKeyId = some k

theorem SameSession.refl (o : Session) : SameSession o o := ⟨rfl, rfl, rfl, fun _ => id⟩

private theorem rereadAuthData_key {a : AuthData} (read : o.rereadAuthData force env = some a) :
    a.authKeyId = o.authKeyId := by
  unfold Session.rereadAuthData at read
  split at read
  · rename_i keyId known
    obtain ⟨permKey, -, rfl⟩ := Option.map_eq_some_iff.mp read
    exact known.symm
  · rw [Session.authKeyId, read]
    rfl

private theorem reauthorize_spec (done : o.reauthorize force env = some o') :
    SameSession o o' ∧ o'.channelIds = o.channelIds ∧ (o.HasIds → o'.HasIds) := by
  unfold Session.reauthorize at done
  split at done
  · obtain ⟨auth, -, rfl⟩ := Option.map_eq_some_iff.mp done
    refine ⟨⟨rfl, rfl, rfl, (SameSession.refl o).key⟩, rfl, fun _ => ⟨?_, ?_⟩⟩
    · rintro u ⟨⟩
      exact auth.userId_pos
    · rintro a ⟨⟩
      exact auth.id_pos
  · obtain rfl := Option.some.inj done
    exact ⟨SameSession.refl o, rfl, id⟩

theorem renewal_renewed (found : o.renewal force env = .renewed o') :
    SameSession o o' ∧ o'.channelIds = o.channelIds ∧ (o.HasIds → o'.HasIds) := by
  unfold Session.renewal at found
  split at found
  · cases found
  · split at found
    · cases found
    · rename_i a read
      split at found
      · cases found
      · split at found
        · cases found
        · rename_i session done
          cases found
          obtain ⟨same, channels, ids⟩ := reauthorize_spec done
          have key := rereadAuthData_key read
          refine ⟨⟨same.sessionId, same.connected, same.internalPush, ?_⟩, channels, ?_⟩
          · intro k present
            exact key.symm.trans (same.key k present)
          · intro before
            exact ids ⟨before.user, before.auth⟩

variable (x : Live) (r : SessionRef)

theorem refreshAuthMaybe_skipped (found : x.session.renewal force env = .skipped) :
    x.refreshAuthMaybe r force env = (x, .returned) := by
  unfold Session.renewal at found
  unfold Live.refreshAuthMaybe
  grind

theorem refreshAuthMaybe_raised (found : x.session.renewal force env = .raised) :
    x.refreshAuthMaybe r force env =
      ({ x with session := { x.session with authData := none } }, .raised) := by
  unfold Session.renewal at found
  unfold Live.refreshAuthMaybe
  grind

theorem refreshAuthMaybe_renewed (found : x.session.renewal force env = .renewed o') :
    x.refreshAuthMaybe r force env =
      ((if o'.channelsAreStale env then { x with session := o' }.refreshChannels r env
        else { x with session := o' }).resubscribe r x.session.userId x.session.authId,
        .returned) := by
  unfold Session.renewal at found
  unfold Live.refreshAuthMaybe Live.refreshIdentity
  grind

/-- A refresh without an authorization resets the session as it was, but for its authorization
data and the time of the attempt. -/
theorem refreshAuthMaybe_dropped (found : x.session.renewal force env = .dropped) :
    ∃ authData loadedAt,
      (∀ a, authData = some a → a.authKeyId = x.session.authKeyId) ∧
      x.refreshAuthMaybe r force env =
        ({ x with
            session := { x.session with authData := authData, authLoadedAt := loadedAt }
          }.resetAuth r, .returned) := by
  unfold Session.renewal at found
  unfold Live.refreshAuthMaybe Live.refreshIdentity
  split at found
  · cases found
  · rename_i present
    rw [if_neg present]
    split at found
    · cases found
    · rename_i auth read
      have key := rereadAuthData_key read
      simp only [read]
      split
      · exact ⟨some auth, x.session.authLoadedAt, by rintro a ⟨⟩; exact key, rfl⟩
      · rename_i known
        rw [if_neg known] at found
        split at found
        · rename_i gone
          refine ⟨some auth, env.now, ?_, by grind⟩
          rintro a ⟨⟩
          exact key
        · cases found

end Refresh

section Methods

variable {o : Session} {force : Bool} {env : Readings}

structure OwnChange (r : SessionRef) (x x' : Live) : Prop where
  same : SameSession x.session x'.session
  ids : x.session.HasIds → x'.session.HasIds
  others : ∀ s, s ≠ r → x'.broker.view s = x.broker.view s
  byId : x'.broker.subscribedSessions = x.broker.subscribedSessions

theorem SameSession.trans {o p q : Session} (first : SameSession o p) (second : SameSession p q) :
    SameSession o q where
  sessionId := second.sessionId.trans first.sessionId
  connected := second.connected.trans first.connected
  internalPush := second.internalPush.trans first.internalPush
  key := fun k present => first.key k (second.key k present)

theorem OwnChange.trans {r : SessionRef} {x y z : Live} (first : OwnChange r x y)
    (second : OwnChange r y z) : OwnChange r x z where
  same := first.same.trans second.same
  ids := second.ids ∘ first.ids
  others := fun s other => (second.others s other).trans (first.others s other)
  byId := second.byId.trans first.byId

variable (x : Live) (r : SessionRef)

theorem ownChange_resetAuth : OwnChange r x (x.resetAuth r) where
  same := ⟨rfl, rfl, rfl, fun _ => id⟩
  ids := fun _ => ⟨by rintro u ⟨⟩, by rintro a ⟨⟩⟩
  others := fun s other => by rw [view_resetAuth, if_neg other]
  byId := rfl

theorem ownChange_refreshChannels : OwnChange r x (x.refreshChannels r env) where
  same := by
    rw [session_refreshChannels]
    exact ⟨rfl, rfl, rfl, fun _ => id⟩
  ids := fun before => by
    rw [session_refreshChannels]
    exact ⟨before.user, before.auth⟩
  others := fun s other => by rw [view_refreshChannels, if_neg other]
  byId := subscribedSessions_refreshChannels r x env

theorem ownChange_resubscribe (old : Session) :
    OwnChange r x (x.resubscribe r old.userId old.authId) where
  same := SameSession.refl x.session
  ids := id
  others := fun s other => by rw [view_resubscribe, if_neg other]
  byId := subscribedSessions_resubscribe r x old.userId old.authId

theorem ownChange_refreshAuthMaybe :
    OwnChange r x (x.refreshAuthMaybe r force env).1 := by
  cases found : x.session.renewal force env with
  | skipped =>
    rw [refreshAuthMaybe_skipped x r found]
    exact ⟨SameSession.refl _, id, fun _ _ => rfl, rfl⟩
  | raised =>
    rw [refreshAuthMaybe_raised x r found]
    refine ⟨⟨rfl, rfl, rfl, ?_⟩, fun ids => ⟨ids.user, ids.auth⟩, fun _ _ => rfl, rfl⟩
    rintro k ⟨⟩
  | dropped =>
    obtain ⟨authData, loadedAt, key, done⟩ := refreshAuthMaybe_dropped x r found
    rw [done]
    refine OwnChange.trans ?_ (ownChange_resetAuth
      { x with session := { x.session with authData := authData, authLoadedAt := loadedAt } } r)
    refine ⟨⟨rfl, rfl, rfl, ?_⟩, fun ids => ⟨ids.user, ids.auth⟩, fun _ _ => rfl, rfl⟩
    intro k known
    obtain ⟨a, present, same⟩ := Option.bind_eq_some_iff.mp known
    exact (key a present).symm.trans same
  | renewed session =>
    obtain ⟨same, -, ids⟩ := renewal_renewed found
    rw [refreshAuthMaybe_renewed x r found]
    have renewed : OwnChange r x { x with session := session } :=
      ⟨same, ids, fun _ _ => rfl, rfl⟩
    refine OwnChange.trans ?_ (ownChange_resubscribe _ r x.session)
    split
    · exact renewed.trans (ownChange_refreshChannels _ r)
    · exact renewed

end Methods

namespace Traced

variable {t : Traced} {r : SessionRef} {o : Session} {force : Bool} {env : Readings}

theorem mirrors_drop_iff (ids : o.HasIds)
    (mirrors : Mirrors o (t.server.broker.view r) (t.current r)) (x : Live)
    (channels : x.session.channelIds = o.channelIds) (user : x.session.userId = o.userId)
    (auth : x.session.authId = o.authId) (broker : x.broker = t.server.broker) :
    Mirrors (x.resetAuth r).session ((x.resetAuth r).broker.view r) ∅ ↔ t.DropSafe r o := by
  have view : (x.resetAuth r).broker.view r = (t.server.broker.view r).resetAuth o := by
    rw [view_resetAuth, if_pos rfl, broker]
    simp only [View.resetAuth, channels, user, auth]
  rw [view]
  exact mirrors_resetAuth_iff ids mirrors rfl

theorem mirrors_refresh_iff (ids : o.HasIds)
    (mirrors : Mirrors o (t.server.broker.view r) (t.current r)) :
    Mirrors ((t.server.live o).refreshAuthMaybe r force env).1.session
        (((t.server.live o).refreshAuthMaybe r force env).1.broker.view r)
        (t.refreshed r o force env) ↔
      t.RefreshSafe r o force env := by
  unfold refreshed RefreshSafe RenewalSafe
  cases found : o.renewal force env with
  | skipped =>
    rw [refreshAuthMaybe_skipped (t.server.live o) r found]
    exact iff_of_true mirrors trivial
  | raised =>
    rw [refreshAuthMaybe_raised (t.server.live o) r found]
    exact iff_of_true ⟨mirrors.users, mirrors.auths, mirrors.channels, mirrors.internalPush,
      mirrors.connected⟩ trivial
  | dropped =>
    obtain ⟨authData, loadedAt, -, done⟩ := refreshAuthMaybe_dropped (t.server.live o) r found
    rw [done]
    exact mirrors_drop_iff ids mirrors
      { t.server.live o with
        session := { o with authData := authData, authLoadedAt := loadedAt } } rfl rfl rfl rfl
  | renewed session =>
    obtain ⟨same, channels, keeps⟩ := renewal_renewed found
    rw [refreshAuthMaybe_renewed (t.server.live o) r found]
    by_cases stale : session.channelsAreStale env = true
    · have view := view_refreshChannels r r { t.server.live o with session := session } env
      rw [if_pos rfl] at view
      simp only [stale, ↓reduceIte, session_resubscribe, forall_const]
      rw [show (t.server.live o).session = o from rfl, view_resubscribe, if_pos rfl, view,
        session_refreshChannels]
      have ids' : Session.HasIds { session with
          channelIds := t.server.loaded session env, channelsLoadedAt := env.channelsNow } :=
        ⟨(keeps ids).user, (keeps ids).auth⟩
      rw [channels]
      exact mirrors_renew_iff ids ids' mirrors same.internalPush same.connected o.channelIds
        (t.server.loaded session env)
    · simp only [stale, session_resubscribe]
      rw [show (t.server.live o).session = o from rfl, view_resubscribe, if_pos rfl]
      have resubscribed :=
        mirrors_resubscribe_iff ids (keeps ids) mirrors same.internalPush same.connected
      simpa [Server.live] using resubscribed

end Traced

end Piltover.MessageBroker

/- source: piltover/message_brokers/base_broker.py, piltover/session/session.py
   digest: What the tables say about one session, and how each method changes that. -/

import Piltover.MessageBroker.Subscriptions

set_option autoImplicit false

namespace Piltover.MessageBroker

open Piltover.Foundation

/-- The keys under which one session stands in the tables of sets. -/
@[ext] structure View where
  users : Finset Nat
  keys : Finset Nat
  auths : Finset Nat
  channels : Finset Nat
  internalPush : Finset Nat
  deriving DecidableEq

/-- The tables as one session sees them. -/
def Broker.view (b : Broker) (r : SessionRef) : View where
  users := b.subscribedUsers.keysOf r
  keys := b.subscribedKeys.keysOf r
  auths := b.subscribedAuths.keysOf r
  channels := b.subscribedChannels.keysOf r
  internalPush := b.internalPushUsers.keysOf r

/-- The key that an identifier stands for, if any. -/
def keySet (key : Option Nat) : Finset Nat := (truthy key).toFinset

@[simp] theorem keySet_none : keySet none = ∅ := rfl

theorem keySet_of_pos {k : Nat} (positive : 0 < k) : keySet (some k) = {k} := by
  have kept : truthy (some k) = some k := by
    rw [truthy, Option.filter_some]
    exact if_pos (decide_eq_true (by omega))
  rw [keySet, kept, Option.toFinset_some]

theorem keySet_subset (key : Option Nat) : keySet key ⊆ key.toFinset := by
  intro k member
  have kept : truthy key = some k := Option.mem_toFinset.mp member
  exact Option.mem_toFinset.mpr (Option.filter_eq_some_iff.mp kept).1

@[simp] theorem keysOf_subscribeTo (t : Registry Nat SessionRef) (key : Option Nat)
    (r s : SessionRef) :
    (subscribeTo t key r).keysOf s = if s = r then t.keysOf s ∪ keySet key else t.keysOf s := by
  unfold subscribeTo keySet
  cases truthy key <;> simp

@[simp] theorem keysOf_unsubscribeFrom (t : Registry Nat SessionRef) (key : Option Nat)
    (r s : SessionRef) :
    (unsubscribeFrom t key r).keysOf s = if s = r then t.keysOf s \ keySet key else t.keysOf s := by
  unfold unsubscribeFrom keySet
  cases truthy key <;> simp [Finset.sdiff_singleton_eq_erase]

namespace View

def empty : View := ⟨∅, ∅, ∅, ∅, ∅⟩

/-- `BaseMessageBroker.subscribe` as the session sees it. -/
def subscribe (v : View) (o : Session) : View where
  users := v.users ∪ keySet o.userId
  keys := v.keys ∪ keySet o.authKeyId ∪ keySet o.permAuthKeyId
  auths := v.auths ∪ keySet o.authId
  channels := v.channels ∪ o.channelIds
  internalPush :=
    if o.isInternalPush then v.internalPush ∪ keySet o.userId
    else v.internalPush \ keySet o.userId

/-- `BaseMessageBroker.unsubscribe` as the session sees it. -/
def unsubscribe (v : View) (o : Session) : View where
  users := v.users \ keySet o.userId
  keys := (v.keys \ keySet o.authKeyId) \ keySet o.permAuthKeyId
  auths := v.auths \ keySet o.authId
  channels := v.channels \ o.channelIds
  internalPush := v.internalPush \ keySet o.userId

def resetAuth (v : View) (o : Session) : View :=
  { v with
    users := v.users \ keySet o.userId
    auths := v.auths \ keySet o.authId
    channels := v.channels \ o.channelIds }

/-- The channel part of a refresh as the session sees it. -/
def reload (v : View) (old new : Finset Nat) : View :=
  { v with channels := v.channels \ (old \ new) ∪ new \ old }

/-- The identity part of a refresh as the session sees it. -/
def resubscribe (v : View) (old new : Session) : View :=
  { v with
    users := if old.userId ≠ new.userId then v.users \ keySet old.userId ∪ keySet new.userId
      else v.users
    auths := if old.authId ≠ new.authId then v.auths \ keySet old.authId ∪ keySet new.authId
      else v.auths }

end View

section Methods

variable (b : Broker) (r s : SessionRef) (o : Session)

theorem view_subscribe :
    (b.subscribe r o).view s = if s = r then (b.view s).subscribe o else b.view s := by
  by_cases same : s = r <;> by_cases push : o.isInternalPush <;>
    simp [Broker.subscribe, Broker.view, View.subscribe, Broker.subscribeUser, Broker.subscribeKey,
      Broker.subscribeAuth, Broker.channelsDiffUpdate, Broker.subscribeInternalPush,
      Broker.unsubscribeInternalPush, same, push]

theorem view_unsubscribe :
    (b.unsubscribe r o).view s = if s = r then (b.view s).unsubscribe o else b.view s := by
  by_cases same : s = r <;>
    simp [Broker.unsubscribe, Broker.view, View.unsubscribe, Broker.unsubscribeUser,
      Broker.unsubscribeKey, Broker.unsubscribeAuth, Broker.channelsDiffUpdate,
      Broker.unsubscribeInternalPush, same]

theorem view_channelsDiffUpdate (sessions : Finset SessionRef) (toDelete toAdd : Finset Nat) :
    (b.channelsDiffUpdate sessions toDelete toAdd).view s =
      if s ∈ sessions then
        { b.view s with channels := (b.view s).channels \ toDelete ∪ toAdd }
      else b.view s := by
  by_cases chosen : s ∈ sessions <;>
    simp [Broker.channelsDiffUpdate, Broker.view, chosen]

variable (x : Live)

theorem view_resetAuth :
    (x.resetAuth r).broker.view s =
      if s = r then (x.broker.view s).resetAuth x.session else x.broker.view s := by
  by_cases same : s = r <;>
    simp [Live.resetAuth, Broker.view, View.resetAuth, Broker.unsubscribeUser,
      Broker.unsubscribeAuth, Broker.channelsDiffUpdate, same]

def Live.loaded (x : Live) (env : Readings) : Finset Nat := (x.loadChannels env).1.toFinset

private theorem loadChannels_frame (env : Readings) :
    (x.loadChannels env).2.session = x.session ∧ (x.loadChannels env).2.broker = x.broker := by
  unfold Live.loadChannels
  split <;> exact ⟨rfl, rfl⟩

theorem session_refreshChannels (env : Readings) :
    (x.refreshChannels r env).session =
      { x.session with channelIds := x.loaded env, channelsLoadedAt := env.channelsNow } := by
  obtain ⟨session, -⟩ := loadChannels_frame x env
  simp only [Live.refreshChannels, session, Live.loaded]

theorem view_refreshChannels (env : Readings) :
    (x.refreshChannels r env).broker.view s =
      if s = r then (x.broker.view s).reload x.session.channelIds (x.loaded env)
      else x.broker.view s := by
  obtain ⟨session, broker⟩ := loadChannels_frame x env
  simp only [Live.refreshChannels, session, broker, view_channelsDiffUpdate, Finset.mem_singleton]
  rfl

theorem subscribedSessions_refreshChannels (env : Readings) :
    (x.refreshChannels r env).broker.subscribedSessions = x.broker.subscribedSessions := by
  obtain ⟨-, broker⟩ := loadChannels_frame x env
  simp only [Live.refreshChannels, broker, Broker.channelsDiffUpdate]

theorem subscribedSessions_resubscribe (oldUserId oldAuthId : Option Nat) :
    (x.resubscribe r oldUserId oldAuthId).broker.subscribedSessions =
      x.broker.subscribedSessions := by
  simp only [Live.resubscribe]
  split <;> split <;> rfl

@[simp] theorem session_resubscribe (oldUserId oldAuthId : Option Nat) :
    (x.resubscribe r oldUserId oldAuthId).session = x.session := rfl

theorem view_resubscribe (old : Session) :
    (x.resubscribe r old.userId old.authId).broker.view s =
      if s = r then (x.broker.view s).resubscribe old x.session else x.broker.view s := by
  by_cases same : s = r <;> by_cases users : old.userId = x.session.userId <;>
    by_cases auths : old.authId = x.session.authId <;>
    simp [Live.resubscribe, Broker.view, View.resubscribe, Broker.unsubscribeUser,
      Broker.subscribeUser, Broker.unsubscribeAuth, Broker.subscribeAuth, same, users, auths]

end Methods

end Piltover.MessageBroker

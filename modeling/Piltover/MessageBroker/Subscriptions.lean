/- source: piltover/message_brokers/base_broker.py, piltover/session/session.py,
     piltover/session/session_manager.py
   digest: The subscription tables of the broker and everything that changes them. -/

import Mathlib.Data.Finset.Option
import Piltover.Foundation.OrderedDict
import Piltover.Foundation.Registry

set_option autoImplicit false

namespace Piltover.MessageBroker

open Piltover.Foundation

/-- A session object: its position in the list of all that were ever made. -/
abbrev SessionRef := Nat

/-- A session object's key in `SessionManager.sessions`. -/
abbrev UniqId := Nat × Nat

structure AuthData where
  authKeyId : Option Nat
  permAuthKeyId : Option Nat
  deriving DecidableEq

/-- A row of `UserAuthorization` with its user; primary keys are positive. -/
structure Authorization where
  id : Nat
  userId : Nat
  isBot : Bool
  mfaPending : Bool
  id_pos : 0 < id
  userId_pos : 0 < userId
  deriving DecidableEq

/-- The fields of `Session` that decide where it is subscribed; `connected` is `client is not
None`. -/
structure Session where
  connected : Bool
  sessionId : Nat
  authData : Option AuthData
  userId : Option Nat
  authId : Option Nat
  isBot : Bool
  mfaPending : Bool
  authLoadedAt : Nat
  channelIds : Finset Nat
  channelsLoadedAt : Nat
  isInternalPush : Bool
  deriving DecidableEq

/-- What a refresh reads: the clock twice, `AuthKey.get_auth_data` (the permanent key of the key, or
`none` for a key that is gone), the authorization of the permanent key and the channels that the
user has not left. -/
structure Readings where
  now : Nat
  keyData : Option (Option Nat)
  authorization : Option Authorization
  channelsNow : Nat
  participants : List Nat
  deriving DecidableEq

structure Broker where
  subscribedUsers : Registry Nat SessionRef
  subscribedSessions : OrderedDict Nat SessionRef
  subscribedKeys : Registry Nat SessionRef
  subscribedAuths : Registry Nat SessionRef
  subscribedChannels : Registry Nat SessionRef
  internalPushUsers : Registry Nat SessionRef

/-- `Cache.obj` under `channels:{user_id}`. -/
abbrev ChannelCache := OrderedDict (Option Nat) (List Nat)

/-- `x if x else None` for an identifier. -/
def truthy (key : Option Nat) : Option Nat := key.filter (· ≠ 0)

/-- The shape of every `subscribe_*`: an absent identifier subscribes to nothing. -/
def subscribeTo (t : Registry Nat SessionRef) (key : Option Nat) (r : SessionRef) :
    Registry Nat SessionRef :=
  match truthy key with
  | none => t
  | some k => t.add k r

/-- The shape of every `unsubscribe_*`. -/
def unsubscribeFrom (t : Registry Nat SessionRef) (key : Option Nat) (r : SessionRef) :
    Registry Nat SessionRef :=
  match truthy key with
  | none => t
  | some k => t.discard k r

namespace Session

/-- `Session.__init__`. -/
def new (sessionId : Nat) (authData : AuthData) : Session where
  connected := true
  sessionId := sessionId
  authData := some authData
  userId := none
  authId := none
  isBot := false
  mfaPending := false
  authLoadedAt := 0
  channelIds := ∅
  channelsLoadedAt := 0
  isInternalPush := false

def withInternalPush (o : Session) : Session := { o with isInternalPush := true }

def authKeyId (o : Session) : Option Nat := o.authData.bind AuthData.authKeyId

def permAuthKeyId (o : Session) : Option Nat := o.authData.bind AuthData.permAuthKeyId

/-- The time checks of `refresh_auth_maybe` before it reads the authorization. -/
def authIsStale (o : Session) (force : Bool) (env : Readings) : Bool :=
  decide (o.authLoadedAt + 60 < env.now) || force || o.authId.isNone

/-- The checks of `refresh_auth_maybe` before it reads the channels. -/
def channelsAreStale (o : Session) (env : Readings) : Bool :=
  o.authId.isSome && !o.mfaPending && decide (o.channelsLoadedAt + 60 * 5 < env.channelsNow)

/-- `self.auth_data` after the forced reading at the start of `refresh_auth_maybe`. -/
def rereadAuthData (o : Session) (force : Bool) (env : Readings) : Option AuthData :=
  match force, o.authKeyId with
  | true, some keyId => env.keyData.map fun permKey => ⟨some keyId, permKey⟩
  | _, _ => o.authData

def loadAuthorization (o : Session) (auth : Authorization) : Session :=
  { o with
    userId := some auth.userId
    authId := some auth.id
    isBot := auth.isBot
    mfaPending := auth.mfaPending }

/-- The authorization part of `refresh_auth_maybe`; `none` when the authorization is gone. -/
def reauthorize (o : Session) (force : Bool) (env : Readings) : Option Session :=
  if o.authIsStale force env then
    env.authorization.map fun auth => { o.loadAuthorization auth with authLoadedAt := env.now }
  else some o

end Session

namespace Broker

def empty : Broker := ⟨∅, ∅, ∅, ∅, ∅, ∅⟩

def subscribeUser (b : Broker) (userId : Option Nat) (r : SessionRef) : Broker :=
  { b with subscribedUsers := subscribeTo b.subscribedUsers userId r }

def subscribeKey (b : Broker) (keyId : Option Nat) (r : SessionRef) : Broker :=
  { b with subscribedKeys := subscribeTo b.subscribedKeys keyId r }

def subscribeAuth (b : Broker) (authId : Option Nat) (r : SessionRef) : Broker :=
  { b with subscribedAuths := subscribeTo b.subscribedAuths authId r }

def subscribeInternalPush (b : Broker) (userId : Option Nat) (r : SessionRef) : Broker :=
  { b with internalPushUsers := subscribeTo b.internalPushUsers userId r }

def unsubscribeUser (b : Broker) (userId : Option Nat) (r : SessionRef) : Broker :=
  { b with subscribedUsers := unsubscribeFrom b.subscribedUsers userId r }

def unsubscribeKey (b : Broker) (keyId : Option Nat) (r : SessionRef) : Broker :=
  { b with subscribedKeys := unsubscribeFrom b.subscribedKeys keyId r }

def unsubscribeAuth (b : Broker) (authId : Option Nat) (r : SessionRef) : Broker :=
  { b with subscribedAuths := unsubscribeFrom b.subscribedAuths authId r }

def unsubscribeInternalPush (b : Broker) (userId : Option Nat) (r : SessionRef) : Broker :=
  { b with internalPushUsers := unsubscribeFrom b.internalPushUsers userId r }

def channelsDiffUpdate (b : Broker) (sessions : Finset SessionRef) (toDelete toAdd : Finset Nat) :
    Broker :=
  { b with
    subscribedChannels :=
      (b.subscribedChannels.discardAll toDelete sessions).addAll toAdd sessions }

def subscribe (b : Broker) (r : SessionRef) (o : Session) : Broker :=
  let b := { b with subscribedSessions := b.subscribedSessions.setItem o.sessionId r }
  let b := b.subscribeUser o.userId r
  let b := b.subscribeKey o.authKeyId r
  let b := b.subscribeKey o.permAuthKeyId r
  let b := b.subscribeAuth o.authId r
  let b := b.channelsDiffUpdate {r} ∅ o.channelIds
  if o.isInternalPush then b.subscribeInternalPush o.userId r
  else b.unsubscribeInternalPush o.userId r

def unsubscribe (b : Broker) (r : SessionRef) (o : Session) : Broker :=
  let b := { b with subscribedSessions := b.subscribedSessions.erase o.sessionId }
  let b := b.unsubscribeUser o.userId r
  let b := b.unsubscribeKey o.authKeyId r
  let b := b.unsubscribeKey o.permAuthKeyId r
  let b := b.unsubscribeAuth o.authId r
  let b := b.channelsDiffUpdate {r} o.channelIds ∅
  b.unsubscribeInternalPush o.userId r

/-- The table side of `_process_channels_subscribe`. -/
def processChannelsSubscribe (b : Broker) (channelIds userIds : List Nat) (subscribe : Bool) :
    Broker :=
  let sessions := b.subscribedUsers.members userIds.toFinset
  if subscribe then b.channelsDiffUpdate sessions ∅ channelIds.toFinset
  else b.channelsDiffUpdate sessions channelIds.toFinset ∅

end Broker

structure Live where
  session : Session
  broker : Broker
  cache : ChannelCache

/-- How a refresh ends: it returns, or the attribute of a missing `auth_data` raises. -/
inductive Outcome
  | returned | raised
  deriving DecidableEq

namespace Live

def resetAuth (x : Live) (r : SessionRef) : Live :=
  let o := x.session
  { x with
    broker := ((x.broker.unsubscribeAuth o.authId r).unsubscribeUser o.userId r).channelsDiffUpdate
      {r} o.channelIds ∅
    session :=
      { o with
        userId := none
        authId := none
        isBot := false
        mfaPending := false
        channelIds := ∅ } }

/-- The channels of the user of the session, from the cache or else from the database, which the
cache then keeps. -/
def loadChannels (x : Live) (env : Readings) : List Nat × Live :=
  match x.cache.lookup x.session.userId with
  | some cached => (cached, x)
  | none =>
    (env.participants,
      { x with cache := x.cache.setItem x.session.userId env.participants })

def refreshChannels (x : Live) (r : SessionRef) (env : Readings) : Live :=
  let (channelIds, x) := x.loadChannels env
  let oldChannels := x.session.channelIds
  let newChannels := channelIds.toFinset
  { x with
    session := { x.session with
      channelIds := newChannels
      channelsLoadedAt := env.channelsNow }
    broker := x.broker.channelsDiffUpdate {r} (oldChannels \ newChannels)
      (newChannels \ oldChannels) }

/-- The last two statements of `refresh_auth_maybe`. -/
def resubscribe (x : Live) (r : SessionRef) (oldUserId oldAuthId : Option Nat) : Live :=
  let o := x.session
  let b := x.broker
  let b := if oldUserId ≠ o.userId then (b.unsubscribeUser oldUserId r).subscribeUser o.userId r
    else b
  let b := if oldAuthId ≠ o.authId then (b.unsubscribeAuth oldAuthId r).subscribeAuth o.authId r
    else b
  { x with broker := b }

/-- `refresh_auth_maybe` once both keys of the session are known. -/
def refreshIdentity (x : Live) (r : SessionRef) (force : Bool) (env : Readings) : Live :=
  let oldUserId := x.session.userId
  let oldAuthId := x.session.authId
  match x.session.reauthorize force env with
  | none => { x with session := { x.session with authLoadedAt := env.now } }.resetAuth r
  | some session =>
    let x := { x with session := session }
    let x := if session.channelsAreStale env then x.refreshChannels r env else x
    x.resubscribe r oldUserId oldAuthId

def refreshAuthMaybe (x : Live) (r : SessionRef) (force : Bool) (env : Readings) :
    Live × Outcome :=
  if x.session.authData.isNone then (x, .returned)
  else
    let authData := x.session.rereadAuthData force env
    let x := { x with session := { x.session with authData := authData } }
    match authData with
    -- `self.auth_data` is already overwritten when `None.auth_key_id` raises.
    | none => (x, .raised)
    | some auth =>
      if auth.authKeyId.isNone || auth.permAuthKeyId.isNone then (x.resetAuth r, .returned)
      else (x.refreshIdentity r force env, .returned)

end Live

/-- All session objects, `SessionManager.sessions`, the broker and the cache. -/
structure Server where
  objects : List Session
  sessions : OrderedDict UniqId SessionRef
  broker : Broker
  cache : ChannelCache

inductive Event
  | getOrCreate (authKeyId : Nat) (permAuthKeyId : Option Nat) (sessionId : Nat)
  | connect (r : SessionRef)
  | disconnect (r : SessionRef)
  | refreshAuthMaybe (r : SessionRef) (force : Bool) (env : Readings)
  | resetAuth (r : SessionRef)
  | setSessionInternalPush (keyId sessionId : Nat) (env : Readings)
  | channelSubscribe (channelIds userIds : List Nat) (subscribe : Bool)
  | finalize (r : SessionRef)
  | cacheExpires (userId : Nat)

namespace Server

def start : Server := ⟨[], ∅, Broker.empty, ∅⟩

def getOrCreate (t : Server) (authKeyId : Nat) (permAuthKeyId : Option Nat) (sessionId : Nat) :
    Server :=
  match t.sessions.lookup (authKeyId, sessionId) with
  | some _ => t
  | none =>
    { t with
      objects := t.objects ++ [Session.new sessionId ⟨some authKeyId, permAuthKeyId⟩]
      sessions := t.sessions.setItem (authKeyId, sessionId) t.objects.length }

def live (t : Server) (o : Session) : Live := ⟨o, t.broker, t.cache⟩

def store (t : Server) (r : SessionRef) (x : Live) : Server :=
  { t with objects := t.objects.set r x.session, broker := x.broker, cache := x.cache }

/-- `Session.connect`, as far as the broker is concerned. -/
def connect (t : Server) (r : SessionRef) (o : Session) : Server :=
  { t with
    objects := t.objects.set r { o with connected := true }
    broker := t.broker.subscribe r { o with connected := true } }

def disconnect (t : Server) (r : SessionRef) (o : Session) : Server :=
  { t with objects := t.objects.set r { o with connected := false } }

/-- `SetSessionInternalPush` of `_process_message`. -/
def setSessionInternalPush (t : Server) (r : SessionRef) (o : Session) (env : Readings) : Server :=
  match (t.live o.withInternalPush).refreshAuthMaybe r true env with
  | (x, .raised) => t.store r x
  | (x, .returned) => t.store r { x with broker := x.broker.subscribe r x.session }

/-- `_process_channels_subscribe`: the cached channels of the users go, and the tables change. -/
def channelSubscribe (t : Server) (channelIds userIds : List Nat) (subscribe : Bool) : Server :=
  { t with
    cache := t.cache.popAll (userIds.map some)
    broker := t.broker.processChannelsSubscribe channelIds userIds subscribe }

/-- `SessionManager.finalize`. -/
def finalize (t : Server) (r : SessionRef) (o : Session) : Server :=
  match o.authKeyId with
  | none => t.disconnect r o
  | some keyId =>
    { t with
      objects := t.objects.set r { o with connected := false }
      sessions := t.sessions.erase (keyId, o.sessionId)
      broker := t.broker.unsubscribe r o }

/-- One event; `none` when the session object of the event does not exist. -/
def step (t : Server) : Event → Option Server
  | .getOrCreate authKeyId permAuthKeyId sessionId =>
    some (t.getOrCreate authKeyId permAuthKeyId sessionId)
  | .connect r => t.objects[r]?.map (t.connect r)
  | .disconnect r => t.objects[r]?.map (t.disconnect r)
  | .refreshAuthMaybe r force env =>
    t.objects[r]?.map fun o => t.store r ((t.live o).refreshAuthMaybe r force env).1
  | .resetAuth r => t.objects[r]?.map fun o => t.store r ((t.live o).resetAuth r)
  | .setSessionInternalPush keyId sessionId env =>
    match t.sessions.lookup (keyId, sessionId) with
    | none => some t
    | some r => t.objects[r]?.map fun o => t.setSessionInternalPush r o env
  | .channelSubscribe channelIds userIds subscribe =>
    some (t.channelSubscribe channelIds userIds subscribe)
  | .finalize r => t.objects[r]?.map (t.finalize r)
  | .cacheExpires userId => some { t with cache := t.cache.erase userId }

end Server

end Piltover.MessageBroker

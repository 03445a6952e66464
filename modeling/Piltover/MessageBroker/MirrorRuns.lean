/- source: piltover/message_brokers/base_broker.py, piltover/session/session_manager.py
   digest: Every event keeps the tables in step with the sessions exactly when it is safe. -/

import Piltover.MessageBroker.Mirror

set_option autoImplicit false

namespace Piltover.MessageBroker

open Piltover.Foundation
open Piltover.Foundation.Runs

/-- What every run keeps, safe or not. -/
structure Server.Wellformed (t : Server) : Prop where
  ids : ∀ (r : SessionRef) (o : Session), t.objects[r]? = some o → o.HasIds
  unknown : ∀ r : SessionRef, t.objects[r]? = none → t.broker.view r = View.empty
  byId : ∀ k r, t.broker.subscribedSessions.lookup k = some r →
    ∃ o, t.objects[r]? = some o ∧ o.sessionId = k
  registered : ∀ k r, t.sessions.lookup k = some r →
    ∃ o, t.objects[r]? = some o ∧ o.sessionId = k.2 ∧ ∀ key, o.authKeyId = some key → key = k.1

/-- An event that has replaced one session and changed the tables for no other. -/
structure Touches (t t' : Server) (r : SessionRef) (o o' : Session) : Prop where
  here : t.objects[r]? = some o
  objects : t'.objects = t.objects.set r o'
  others : ∀ s, s ≠ r → t'.broker.view s = t.broker.view s
  sessionId : o'.sessionId = o.sessionId
  key : ∀ k, o'.authKeyId = some k → o.authKeyId = some k
  ids : o.HasIds → o'.HasIds
  byId : ∀ k s, t'.broker.subscribedSessions.lookup k = some s →
    t.broker.subscribedSessions.lookup k = some s ∨ (k = o.sessionId ∧ s = r)
  registered : ∀ k s, t'.sessions.lookup k = some s → t.sessions.lookup k = some s

namespace Touches

variable {t t' : Server} {r : SessionRef} {o o' : Session}

theorem present (touches : Touches t t' r o o') : t'.objects[r]? = some o' := by
  obtain ⟨bound, -⟩ := List.getElem?_eq_some_iff.mp touches.here
  rw [touches.objects, List.getElem?_set_self bound]

theorem absent (touches : Touches t t' r o o') {s : SessionRef} (other : s ≠ r) :
    t'.objects[s]? = t.objects[s]? := by
  rw [touches.objects, List.getElem?_set_ne (Ne.symm other)]

theorem wellformed (touches : Touches t t' r o o') (wf : t.Wellformed) : t'.Wellformed where
  ids := fun s p there => by
    by_cases same : s = r
    · subst same
      obtain rfl := Option.some.inj (touches.present.symm.trans there)
      exact touches.ids (wf.ids s o touches.here)
    · exact wf.ids s p ((touches.absent same).symm.trans there)
  unknown := fun s nothing => by
    by_cases same : s = r
    · subst same
      cases touches.present.symm.trans nothing
    · rw [touches.others s same]
      exact wf.unknown s ((touches.absent same).symm.trans nothing)
  byId := fun k s there => by
    by_cases same : s = r
    · subst same
      refine ⟨o', touches.present, touches.sessionId.trans ?_⟩
      rcases touches.byId k s there with before | ⟨rfl, -⟩
      · obtain ⟨p, here, named⟩ := wf.byId k s before
        obtain rfl := Option.some.inj (touches.here.symm.trans here)
        exact named
      · rfl
    · rcases touches.byId k s there with before | ⟨-, named⟩
      · obtain ⟨p, here, named⟩ := wf.byId k s before
        exact ⟨p, (touches.absent same).trans here, named⟩
      · exact absurd named same
  registered := fun k s there => by
    obtain ⟨p, here, named, key⟩ := wf.registered k s (touches.registered k s there)
    by_cases same : s = r
    · subst same
      obtain rfl := Option.some.inj (touches.here.symm.trans here)
      exact ⟨o', touches.present, touches.sessionId.trans named,
        fun a known => key a (touches.key a known)⟩
    · exact ⟨p, (touches.absent same).trans here, named, key⟩

end Touches

theorem mirrored_touch_iff {t : Traced} {server : Server} {current : SessionRef → Finset Nat}
    {finalized : Option SessionRef} {r : SessionRef} {o o' : Session}
    (touches : Touches t.server server r o o') (mirrored : t.Mirrored)
    (currents : ∀ s, s ≠ r → current s = t.current s)
    (ended : ∀ s, finalized = some s → s = r) :
    Traced.Mirrored ⟨server, current, finalized⟩ ↔
      Mirrors o' (server.broker.view r) (current r) ∧
        (finalized = some r → server.InNoTable r) := by
  constructor
  · rintro ⟨all, gone⟩
    exact ⟨all r o' touches.present, gone r⟩
  · rintro ⟨mirrors, gone⟩
    refine ⟨fun s p there => ?_, fun s done => ?_⟩
    · show Mirrors p (server.broker.view s) (current s)
      by_cases same : s = r
      · subst same
        obtain rfl := Option.some.inj (touches.present.symm.trans there)
        exact mirrors
      · rw [touches.others s same, currents s same]
        exact mirrored.1 s p ((touches.absent same).symm.trans there)
    · obtain rfl := ended s done
      exact gone done

section Events

variable {t : Server} {r : SessionRef} {o : Session}

private theorem subscribedSessions_subscribe (b : Broker) (r : SessionRef) (o : Session) :
    (b.subscribe r o).subscribedSessions = b.subscribedSessions.setItem o.sessionId r := by
  simp only [Broker.subscribe]
  split <;> rfl

private theorem lookup_subscribe {b : Broker} {k : Nat} {s : SessionRef}
    (there : (b.subscribe r o).subscribedSessions.lookup k = some s) :
    b.subscribedSessions.lookup k = some s ∨ (k = o.sessionId ∧ s = r) := by
  rw [subscribedSessions_subscribe, OrderedDict.lookup_setItem] at there
  split at there
  · rename_i same
    exact .inr ⟨same, (Option.some.inj there).symm⟩
  · exact .inl there

theorem touches_connect (here : t.objects[r]? = some o) :
    Touches t (t.connect r o) r o { o with connected := true } where
  here := here
  objects := rfl
  others := fun s other => (view_subscribe t.broker r s _).trans (if_neg other)
  sessionId := rfl
  key := fun _ => id
  ids := fun before => ⟨before.user, before.auth⟩
  byId := fun _ _ there => lookup_subscribe there
  registered := fun _ _ => id

theorem touches_disconnect (here : t.objects[r]? = some o) :
    Touches t (t.disconnect r o) r o { o with connected := false } where
  here := here
  objects := rfl
  others := fun _ _ => rfl
  sessionId := rfl
  key := fun _ => id
  ids := fun before => ⟨before.user, before.auth⟩
  byId := fun _ _ => .inl
  registered := fun _ _ => id

theorem touches_store {p : Session} {x : Live} (here : t.objects[r]? = some o)
    (sessionId : p.sessionId = o.sessionId)
    (key : ∀ k, p.authKeyId = some k → o.authKeyId = some k) (ids : o.HasIds → p.HasIds)
    (change : OwnChange r (t.live p) x) : Touches t (t.store r x) r o x.session where
  here := here
  objects := rfl
  others := change.others
  sessionId := change.same.sessionId.trans sessionId
  key := fun k known => key k (change.same.key k known)
  ids := change.ids ∘ ids
  byId := fun k s there => .inl (by rw [← there]; exact congrArg _ change.byId.symm)
  registered := fun _ _ => id

/-- The session that a `SetSessionInternalPush` message leaves behind. -/
def afterInternalPush (t : Server) (r : SessionRef) (o : Session) (env : Readings) : Session :=
  ((t.live o.withInternalPush).refreshAuthMaybe r true env).1.session

theorem touches_setSessionInternalPush (here : t.objects[r]? = some o) (env : Readings) :
    Touches t (t.setSessionInternalPush r o env) r o (afterInternalPush t r o env) := by
  have change : OwnChange r (t.live o.withInternalPush)
      ((t.live o.withInternalPush).refreshAuthMaybe r true env).1 :=
    ownChange_refreshAuthMaybe (t.live o.withInternalPush) r
  have stored := touches_store (p := o.withInternalPush) here rfl (fun _ => id)
    (fun before => ⟨before.user, before.auth⟩) change
  unfold Server.setSessionInternalPush afterInternalPush
  split
  · rename_i x done
    rw [done] at stored ⊢
    exact stored
  · rename_i x done
    rw [done] at stored ⊢
    refine { stored with others := fun s other => ?_, byId := fun k s there => ?_ }
    · exact ((view_subscribe x.broker r s x.session).trans (if_neg other)).trans
        (stored.others s other)
    · rcases lookup_subscribe there with before | ⟨rfl, same⟩
      · exact stored.byId k s before
      · exact .inr ⟨stored.sessionId, same⟩

theorem touches_finalize (here : t.objects[r]? = some o) :
    Touches t (t.finalize r o) r o { o with connected := false } := by
  unfold Server.finalize
  split
  · exact touches_disconnect here
  · refine ⟨here, rfl, fun s other => (view_unsubscribe t.broker r s o).trans (if_neg other), rfl,
      fun _ => id, fun before => ⟨before.user, before.auth⟩, fun k s there => .inl ?_,
      fun k s there => (OrderedDict.lookup_erase_eq_some.mp there).2⟩
    exact (OrderedDict.lookup_erase_eq_some.mp there).2

/-- An unsubscribed session still stands in the tables under the keys and channels that it does
not know of. -/
private theorem unsubscribe_eq_empty_iff {v : View} {current : Finset Nat} (ids : o.HasIds)
    (mirrors : Mirrors o v current) :
    v.unsubscribe o = View.empty ↔
      v.keys ⊆ keySet o.authKeyId ∪ keySet o.permAuthKeyId ∧ v.channels ⊆ o.channelIds := by
  have users : v.users \ keySet o.userId = ∅ := by
    refine Finset.sdiff_eq_empty_iff_subset.mpr fun u member => ?_
    have named := mirrors.users u member
    rw [named, keySet_of_pos (ids.user u named)]
    exact Finset.mem_singleton_self u
  have auths : v.auths \ keySet o.authId = ∅ := by
    refine Finset.sdiff_eq_empty_iff_subset.mpr fun a member => ?_
    have named := mirrors.auths a member
    rw [named, keySet_of_pos (ids.auth a named)]
    exact Finset.mem_singleton_self a
  have push : v.internalPush \ keySet o.userId = ∅ := by
    refine Finset.sdiff_eq_empty_iff_subset.mpr fun u member => ?_
    have named := (mirrors.internalPush u member).2
    rw [named, keySet_of_pos (ids.user u named)]
    exact Finset.mem_singleton_self u
  simp only [View.unsubscribe, View.empty, View.mk.injEq, users, auths, push, true_and, and_true,
    sdiff_sdiff_left, Finset.sdiff_eq_empty_iff_subset]
  rfl

theorem mirrors_finalize {t : Traced}
    (mirrors : Mirrors o (t.server.broker.view r) (t.current r)) :
    Mirrors { o with connected := false } ((t.server.finalize r o).broker.view r)
      (t.current r) := by
  have kept : ∀ {v : View}, Mirrors o v (t.current r) →
      Mirrors { o with connected := false } v (t.current r) := fun m =>
    ⟨m.users, m.auths, m.channels, m.internalPush, by rintro u ⟨⟩⟩
  unfold Server.finalize
  split
  · exact kept mirrors
  · show Mirrors _ ((t.server.broker.unsubscribe r o).view r) _
    rw [view_unsubscribe, if_pos rfl]
    exact
      { users := fun u member => mirrors.users u (Finset.mem_sdiff.mp member).1
        auths := fun a member => mirrors.auths a (Finset.mem_sdiff.mp member).1
        channels := fun c member => mirrors.channels (Finset.mem_sdiff.mp member).1
        internalPush := fun u member => mirrors.internalPush u (Finset.mem_sdiff.mp member).1
        connected := by rintro u ⟨⟩ }

theorem finalize_inNoTable_iff {t : Traced} (wf : t.server.Wellformed)
    (here : t.server.objects[r]? = some o)
    (mirrors : Mirrors o (t.server.broker.view r) (t.current r)) :
    (t.server.finalize r o).InNoTable r ↔ t.FinalizeSafe r o := by
  unfold Traced.FinalizeSafe Server.finalize
  cases known : o.authKeyId with
  | none => exact Iff.rfl
  | some keyId =>
    have view : (t.server.broker.unsubscribe r o).view r =
        (t.server.broker.view r).unsubscribe o :=
      (view_unsubscribe t.server.broker r r o).trans (if_pos rfl)
    have byId : r ∉ (t.server.broker.unsubscribe r o).subscribedSessions.entries.map
        Sigma.snd := by
      rw [OrderedDict.mem_values_iff]
      rintro ⟨k, found⟩
      obtain ⟨other, before⟩ := OrderedDict.lookup_erase_eq_some.mp found
      obtain ⟨p, there, named⟩ := wf.byId k r before
      obtain rfl := Option.some.inj (here.symm.trans there)
      exact other named.symm
    have registered : r ∉ (AList.erase (keyId, o.sessionId) t.server.sessions).entries.map
        Sigma.snd := by
      rw [OrderedDict.mem_values_iff]
      rintro ⟨k, found⟩
      obtain ⟨other, before⟩ := OrderedDict.lookup_erase_eq_some.mp found
      obtain ⟨p, there, named, key⟩ := wf.registered k r before
      obtain rfl := Option.some.inj (here.symm.trans there)
      exact other (Prod.ext (key keyId known).symm named.symm)
    simp only [Server.InNoTable, view, byId, registered, not_false_eq_true, and_true]
    rw [unsubscribe_eq_empty_iff (wf.ids r o here) mirrors, known]

end Events

section Steps

variable {t : Traced} {r : SessionRef} {o : Session}

private theorem update_of_ne {current : SessionRef → Finset Nat} {channels : Finset Nat}
    (s : SessionRef) (other : s ≠ r) : Function.update current r channels s = current s :=
  Function.update_of_ne other channels current

variable {force : Bool} {env : Readings}

private theorem refresh_connected (ids : o.HasIds)
    (mirrors : Mirrors o (t.server.broker.view r) (t.current r)) {x : Live}
    (done : ((t.server.live o).refreshAuthMaybe r force env).1 = x) (u : Nat)
    (live : x.session.connected = true) (named : x.session.userId = some u) :
    u ∈ (x.broker.view r).users := by
  cases found : o.renewal force env with
  | skipped =>
    rw [refreshAuthMaybe_skipped (t.server.live o) r found] at done
    subst done
    exact mirrors.connected u live named
  | raised =>
    rw [refreshAuthMaybe_raised (t.server.live o) r found] at done
    subst done
    exact mirrors.connected u live named
  | dropped =>
    obtain ⟨authData, loadedAt, -, ended⟩ := refreshAuthMaybe_dropped (t.server.live o) r found
    rw [ended] at done
    subst done
    cases named
  | renewed session =>
    obtain ⟨same, -, keeps⟩ := renewal_renewed found
    rw [refreshAuthMaybe_renewed (t.server.live o) r found] at done
    subst done
    rw [session_resubscribe] at live named
    rw [show (t.server.live o).session = o from rfl, view_resubscribe, if_pos rfl]
    by_cases stale : session.channelsAreStale env = true
    · rw [if_pos stale] at live named ⊢
      rw [session_refreshChannels] at live named ⊢
      rw [view_refreshChannels, if_pos rfl]
      exact mem_users_resubscribe ⟨(keeps ids).user, (keeps ids).auth⟩
        (fun u => mirrors.connected u (same.connected ▸ live)) u named
    · rw [if_neg stale] at live named ⊢
      exact mem_users_resubscribe (keeps ids)
        (fun u => mirrors.connected u (same.connected ▸ live)) u named

private theorem refresh_channels_iff {x : Live} (done :
      ((t.server.live o).refreshAuthMaybe r true env) = (x, .returned)) :
    x.session.channelIds ⊆ t.refreshed r o true env ↔
      t.ResubscribeSafe r o env (o.renewal true env) := by
  unfold Traced.refreshed Traced.ResubscribeSafe
  cases found : o.renewal true env with
  | skipped =>
    rw [refreshAuthMaybe_skipped (t.server.live o) r found] at done
    cases done
    exact Iff.rfl
  | raised =>
    rw [refreshAuthMaybe_raised (t.server.live o) r found] at done
    cases done
  | dropped =>
    obtain ⟨authData, loadedAt, -, ended⟩ := refreshAuthMaybe_dropped (t.server.live o) r found
    rw [ended] at done
    cases done
    exact iff_of_true (Finset.Subset.refl _) trivial
  | renewed session =>
    obtain ⟨-, channels, -⟩ := renewal_renewed found
    rw [refreshAuthMaybe_renewed (t.server.live o) r found] at done
    cases done
    rw [session_resubscribe]
    by_cases stale : session.channelsAreStale env = true
    · simp only [stale, ↓reduceIte, session_refreshChannels, true_or, iff_true]
      exact Finset.Subset.refl _
    · simp only [stale, channels, Traced.SubscribeSafe, false_or, Bool.false_eq_true, ↓reduceIte]

private theorem resubscribeSafe_of_raised {x : Live} (done :
      ((t.server.live o).refreshAuthMaybe r true env) = (x, .raised)) :
    t.ResubscribeSafe r o env (o.renewal true env) := by
  unfold Traced.ResubscribeSafe
  cases found : o.renewal true env with
  | raised | dropped => trivial
  | skipped =>
    rw [refreshAuthMaybe_skipped (t.server.live o) r found] at done
    cases done
  | renewed session =>
    rw [refreshAuthMaybe_renewed (t.server.live o) r found] at done
    cases done

theorem mirrors_setSessionInternalPush_iff (ids : o.HasIds)
    (mirrors : Mirrors o (t.server.broker.view r) (t.current r)) :
    Mirrors (afterInternalPush t.server r o env)
        ((t.server.setSessionInternalPush r o env).broker.view r)
        (t.refreshed r o.withInternalPush true env) ↔
      t.RefreshSafe r o.withInternalPush true env ∧
        t.ResubscribeSafe r o.withInternalPush env (o.withInternalPush.renewal true env) := by
  have flagged : Mirrors o.withInternalPush (t.server.broker.view r) (t.current r) :=
    ⟨mirrors.users, mirrors.auths, mirrors.channels,
      fun u member => ⟨rfl, (mirrors.internalPush u member).2⟩, mirrors.connected⟩
  have ids' : o.withInternalPush.HasIds := ⟨ids.user, ids.auth⟩
  have refresh : Mirrors ((t.server.live o.withInternalPush).refreshAuthMaybe r true env).1.session
      (((t.server.live o.withInternalPush).refreshAuthMaybe r true env).1.broker.view r)
      (t.refreshed r o.withInternalPush true env) ↔ t.RefreshSafe r o.withInternalPush true env :=
    Traced.mirrors_refresh_iff ids' flagged
  have change : OwnChange r (t.server.live o.withInternalPush)
      ((t.server.live o.withInternalPush).refreshAuthMaybe r true env).1 :=
    ownChange_refreshAuthMaybe (t.server.live o.withInternalPush) r
  have connected : ∀ u,
      ((t.server.live o.withInternalPush).refreshAuthMaybe r true env).1.session.connected →
      ((t.server.live o.withInternalPush).refreshAuthMaybe r true env).1.session.userId = some u →
      u ∈ (((t.server.live o.withInternalPush).refreshAuthMaybe r true env).1.broker.view
        r).users :=
    refresh_connected ids' flagged rfl
  unfold afterInternalPush Server.setSessionInternalPush
  cases done : (t.server.live o.withInternalPush).refreshAuthMaybe r true env with
  | mk x outcome =>
    rw [done] at refresh change connected
    cases outcome with
    | raised =>
      have safe : t.ResubscribeSafe r o.withInternalPush env
          (o.withInternalPush.renewal true env) :=
        resubscribeSafe_of_raised done
      exact refresh.trans (iff_self_and.mpr fun _ => safe)
    | returned =>
      have channels := refresh_channels_iff done
      have view : (x.broker.subscribe r x.session).view r =
          (x.broker.view r).subscribe x.session :=
        (view_subscribe x.broker r r x.session).trans (if_pos rfl)
      have push : x.session.isInternalPush = true := change.same.internalPush
      rw [← refresh, ← channels]
      show Mirrors x.session ((x.broker.subscribe r x.session).view r) _ ↔ _
      rw [view]
      constructor
      · intro after
        have own : Mirrors x.session (x.broker.view r)
            (t.refreshed r o.withInternalPush true env) :=
          { users := fun u member => after.users u (Finset.mem_union_left _ member)
            auths := fun a member => after.auths a (Finset.mem_union_left _ member)
            channels := fun c member => after.channels (Finset.mem_union_left _ member)
            internalPush := fun u member => after.internalPush u (by
              simp only [View.subscribe, push, ↓reduceIte]
              exact Finset.mem_union_left _ member)
            connected := connected }
        exact ⟨own, fun c member => after.channels (Finset.mem_union_right _ member)⟩
      · rintro ⟨own, known⟩
        exact (mirrors_subscribe_iff (change.ids ids') own x.session.connected).mpr known

theorem view_processChannelsSubscribe (b : Broker) (channelIds userIds : List Nat)
    (subscribe : Bool) (s : SessionRef) :
    (b.processChannelsSubscribe channelIds userIds subscribe).view s =
      if s ∈ b.subscribedUsers.members userIds.toFinset then
        { b.view s with
          channels :=
            if subscribe then (b.view s).channels ∪ channelIds.toFinset
            else (b.view s).channels \ channelIds.toFinset }
      else b.view s := by
  unfold Broker.processChannelsSubscribe
  cases subscribe <;> simp [view_channelsDiffUpdate]

private theorem mem_members_iff (mirrors : Mirrors o (t.server.broker.view r) (t.current r))
    (userIds : List Nat) :
    r ∈ t.server.broker.subscribedUsers.members userIds.toFinset ↔
      ∃ u ∈ userIds, o.userId = some u ∧ u ∈ (t.server.broker.view r).users := by
  simp only [Registry.mem_members, List.mem_toFinset]
  constructor
  · rintro ⟨u, chosen, member⟩
    exact ⟨u, chosen, mirrors.users u member, member⟩
  · rintro ⟨u, chosen, -, member⟩
    exact ⟨u, chosen, member⟩

theorem wellformed_channelSubscribe {t : Server} (wf : t.Wellformed)
    (channelIds userIds : List Nat) (subscribe : Bool) :
    (t.channelSubscribe channelIds userIds subscribe).Wellformed where
  ids := wf.ids
  unknown := fun r nothing => by
    have empty := wf.unknown r nothing
    have outside : r ∉ t.broker.subscribedUsers.members userIds.toFinset := by
      rw [Registry.mem_members]
      rintro ⟨u, -, member⟩
      have member : u ∈ (t.broker.view r).users := member
      rw [empty] at member
      cases member
    exact (view_processChannelsSubscribe t.broker channelIds userIds subscribe r).trans
      ((if_neg outside).trans empty)
  byId := fun k r there => wf.byId k r (by
    rw [← there]
    unfold Server.channelSubscribe Broker.processChannelsSubscribe
    cases subscribe <;> rfl)
  registered := wf.registered

theorem mirrored_channelSubscribe_iff (mirrored : t.Mirrored) (channelIds userIds : List Nat)
    (subscribe : Bool) :
    Traced.Mirrored
        ⟨t.server.channelSubscribe channelIds userIds subscribe,
          t.currentAfter (.channelSubscribe channelIds userIds subscribe), none⟩ ↔
      (subscribe = true ∨ t.UnsubscribeSafe channelIds userIds) := by
  have view := view_processChannelsSubscribe t.server.broker channelIds userIds subscribe
  have objects : (t.server.channelSubscribe channelIds userIds subscribe).objects =
    t.server.objects := rfl
  constructor
  · rintro ⟨after, -⟩
    refine or_iff_not_imp_left.mpr fun unsubscribe r through u chosen named => ?_
    obtain ⟨o, here, user⟩ := Option.bind_eq_some_iff.mp named
    by_contra absent
    have outside : r ∉ t.server.broker.subscribedUsers.members userIds.toFinset := by
      rw [mem_members_iff (mirrored.1 r o here)]
      rintro ⟨w, -, same, member⟩
      obtain rfl := Option.some.inj (user.symm.trans same)
      exact absent member
    obtain ⟨c, left, member⟩ := Registry.mem_members.mp through
    have known := (after r o here).channels
    rw [show (t.server.channelSubscribe channelIds userIds subscribe).broker.view r =
      t.server.broker.view r from (view r).trans (if_neg outside)] at known
    have kept := known member
    simp only [Traced.currentAfter] at kept
    rw [if_pos ⟨u, chosen, named⟩, if_neg unsubscribe] at kept
    exact (Finset.mem_sdiff.mp kept).2 left
  · intro safe
    refine ⟨fun r o here => ?_, by rintro r ⟨⟩⟩
    have mirrors := mirrored.1 r o here
    have named : t.server.userId r = o.userId := by
      rw [Server.userId, show t.server.objects[r]? = some o from here]
      rfl
    have after := view r
    by_cases inside : r ∈ t.server.broker.subscribedUsers.members userIds.toFinset
    · rw [if_pos inside] at after
      obtain ⟨u, chosen, user, -⟩ := (mem_members_iff mirrors userIds).mp inside
      have channels : (if subscribe then
            (t.server.broker.view r).channels ∪ channelIds.toFinset
          else (t.server.broker.view r).channels \ channelIds.toFinset) ⊆
          t.currentAfter (.channelSubscribe channelIds userIds subscribe) r := by
        have meant : ∃ u ∈ userIds, t.server.userId r = some u := ⟨u, chosen, named.trans user⟩
        simp only [Traced.currentAfter, if_pos meant]
        cases subscribe with
        | true => exact Finset.union_subset_union_left mirrors.channels
        | false => exact Finset.sdiff_subset_sdiff mirrors.channels (Finset.Subset.refl _)
      show Mirrors o
        ((t.server.broker.processChannelsSubscribe channelIds userIds subscribe).view r) _
      rw [after]
      exact ⟨mirrors.users, mirrors.auths, channels, mirrors.internalPush, mirrors.connected⟩
    · rw [if_neg inside] at after
      show Mirrors o
        ((t.server.broker.processChannelsSubscribe channelIds userIds subscribe).view r) _
      rw [after]
      refine ⟨mirrors.users, mirrors.auths, ?_, mirrors.internalPush, mirrors.connected⟩
      intro c member
      simp only [Traced.currentAfter]
      split
      · rename_i meant
        obtain ⟨u, chosen, user⟩ := meant
        rcases safe with subscribes | reached
        · rw [if_pos subscribes]
          exact Finset.mem_union_left _ (mirrors.channels member)
        · split
          · exact Finset.mem_union_left _ (mirrors.channels member)
          · refine Finset.mem_sdiff.mpr ⟨mirrors.channels member, fun left => inside ?_⟩
            have through : r ∈ t.server.broker.subscribedChannels.members channelIds.toFinset :=
              Registry.mem_members.mpr ⟨c, left, member⟩
            exact (mem_members_iff mirrors userIds).mpr
              ⟨u, chosen, named.symm.trans user, reached r through u chosen user⟩
      · exact mirrors.channels member

private theorem mirrors_new (sessionId : Nat) (authData : AuthData) (current : Finset Nat) :
    Mirrors (Session.new sessionId authData) View.empty current where
  users := by rintro u ⟨⟩
  auths := by rintro a ⟨⟩
  channels := Finset.empty_subset current
  internalPush := by rintro u ⟨⟩
  connected := by rintro u - ⟨⟩

private theorem getElem?_getOrCreate {objects : List Session} {p q : Session} {s : SessionRef}
    (there : (objects ++ [p])[s]? = some q) :
    objects[s]? = some q ∨ (s = objects.length ∧ q = p) := by
  rcases Nat.lt_trichotomy s objects.length with before | rfl | after
  · rw [List.getElem?_append_left before] at there
    exact .inl there
  · rw [List.getElem?_concat_length] at there
    exact .inr ⟨rfl, (Option.some.inj there).symm⟩
  · rw [List.getElem?_eq_none (by simp; omega)] at there
    cases there

theorem wellformed_getOrCreate {t : Server} (wf : t.Wellformed) (authKeyId : Nat)
    (permAuthKeyId : Option Nat) (sessionId : Nat) :
    (t.getOrCreate authKeyId permAuthKeyId sessionId).Wellformed := by
  unfold Server.getOrCreate
  split
  · exact wf
  · refine ⟨fun r o there => ?_, fun r nothing => wf.unknown r ?_, fun k r there => ?_,
      fun k r there => ?_⟩
    · rcases getElem?_getOrCreate there with before | ⟨rfl, rfl⟩
      · exact wf.ids r o before
      · exact ⟨by rintro u ⟨⟩, by rintro a ⟨⟩⟩
    · rw [List.getElem?_eq_none_iff, List.length_append] at nothing
      rw [List.getElem?_eq_none_iff]
      omega
    · obtain ⟨o, here, named⟩ := wf.byId k r there
      obtain ⟨bound, -⟩ := List.getElem?_eq_some_iff.mp here
      exact ⟨o, (List.getElem?_append_left bound).trans here, named⟩
    · rw [OrderedDict.lookup_setItem] at there
      split at there
      · rename_i same
        obtain rfl := Option.some.inj there
        subst same
        refine ⟨_, List.getElem?_concat_length, rfl, ?_⟩
        rintro key ⟨⟩
        rfl
      · obtain ⟨o, here, named, key⟩ := wf.registered k r there
        obtain ⟨bound, -⟩ := List.getElem?_eq_some_iff.mp here
        exact ⟨o, (List.getElem?_append_left bound).trans here, named, key⟩

theorem mirrored_getOrCreate (wf : t.server.Wellformed) (mirrored : t.Mirrored) (authKeyId : Nat)
    (permAuthKeyId : Option Nat) (sessionId : Nat) :
    Traced.Mirrored
      ⟨t.server.getOrCreate authKeyId permAuthKeyId sessionId, t.current, none⟩ := by
  refine ⟨fun r o there => ?_, by rintro r ⟨⟩⟩
  unfold Server.getOrCreate at there ⊢
  dsimp only at there ⊢
  split at there
  · exact mirrored.1 r o there
  · rcases getElem?_getOrCreate there with before | ⟨rfl, rfl⟩
    · exact mirrored.1 r o before
    · show Mirrors _ (t.server.broker.view t.server.objects.length) _
      rw [wf.unknown _ (List.getElem?_eq_none (Nat.le_refl _))]
      exact mirrors_new _ _ _

theorem wellformed_step {t t' : Server} {e : Event} (wf : t.Wellformed)
    (happens : t.step e = some t') : t'.Wellformed := by
  cases e with
  | getOrCreate authKeyId permAuthKeyId sessionId =>
    obtain rfl := Option.some.inj happens
    exact wellformed_getOrCreate wf authKeyId permAuthKeyId sessionId
  | connect r =>
    obtain ⟨o, here, rfl⟩ := Option.map_eq_some_iff.mp happens
    exact (touches_connect here).wellformed wf
  | disconnect r =>
    obtain ⟨o, here, rfl⟩ := Option.map_eq_some_iff.mp happens
    exact (touches_disconnect here).wellformed wf
  | refreshAuthMaybe r force env =>
    obtain ⟨o, here, rfl⟩ := Option.map_eq_some_iff.mp happens
    exact (touches_store here rfl (fun _ => id) id
      (ownChange_refreshAuthMaybe (t.live o) r)).wellformed wf
  | resetAuth r =>
    obtain ⟨o, here, rfl⟩ := Option.map_eq_some_iff.mp happens
    exact (touches_store here rfl (fun _ => id) id
      (ownChange_resetAuth (t.live o) r)).wellformed wf
  | setSessionInternalPush keyId sessionId env =>
    simp only [Server.step] at happens
    split at happens
    · obtain rfl := Option.some.inj happens
      exact wf
    · obtain ⟨o, here, rfl⟩ := Option.map_eq_some_iff.mp happens
      exact (touches_setSessionInternalPush here env).wellformed wf
  | channelSubscribe channelIds userIds subscribe =>
    obtain rfl := Option.some.inj happens
    exact wellformed_channelSubscribe wf channelIds userIds subscribe
  | finalize r =>
    obtain ⟨o, here, rfl⟩ := Option.map_eq_some_iff.mp happens
    exact (touches_finalize here).wellformed wf
  | cacheExpires userId =>
    obtain rfl := Option.some.inj happens
    exact ⟨wf.ids, wf.unknown, wf.byId, wf.registered⟩

theorem mirrored_step_iff {t t' : Traced} {e : Event} (wf : t.server.Wellformed)
    (mirrored : t.Mirrored) (happens : t.step e = some t') : t'.Mirrored ↔ t.Safe e := by
  obtain ⟨server, moved, rfl⟩ := Option.map_eq_some_iff.mp happens
  cases e with
  | getOrCreate authKeyId permAuthKeyId sessionId =>
    obtain rfl := Option.some.inj moved
    exact iff_of_true (mirrored_getOrCreate wf mirrored authKeyId permAuthKeyId sessionId) trivial
  | connect r =>
    obtain ⟨o, here, rfl⟩ := Option.map_eq_some_iff.mp moved
    have mirrors := mirrored.1 r o here
    refine (mirrored_touch_iff (touches_connect here) mirrored (fun _ _ => rfl)
      (by rintro s ⟨⟩)).trans ?_
    have view : (t.server.connect r o).broker.view r = (t.server.broker.view r).subscribe o :=
      (view_subscribe t.server.broker r r _).trans (if_pos rfl)
    show Mirrors _ ((t.server.connect r o).broker.view r) _ ∧ _ ↔ _
    rw [view]
    refine (and_iff_left (by rintro ⟨⟩)).trans ?_
    refine (mirrors_subscribe_iff (wf.ids r o here) mirrors true).trans ?_
    simp only [Traced.Safe, here, Option.mem_some_iff, forall_eq']
    exact Iff.rfl
  | disconnect r =>
    obtain ⟨o, here, rfl⟩ := Option.map_eq_some_iff.mp moved
    have mirrors := mirrored.1 r o here
    refine (mirrored_touch_iff (touches_disconnect here) mirrored (fun _ _ => rfl)
      (by rintro s ⟨⟩)).trans (iff_of_true ⟨?_, by rintro ⟨⟩⟩ trivial)
    exact ⟨mirrors.users, mirrors.auths, mirrors.channels, mirrors.internalPush, by rintro u ⟨⟩⟩
  | refreshAuthMaybe r force env =>
    obtain ⟨o, here, rfl⟩ := Option.map_eq_some_iff.mp moved
    have mirrors := mirrored.1 r o here
    have current : t.currentAfter (.refreshAuthMaybe r force env) =
        Function.update t.current r (t.refreshed r o force env) := by
      simp only [Traced.currentAfter, here]
    refine (mirrored_touch_iff (touches_store here rfl (fun _ => id) id
      (ownChange_refreshAuthMaybe (t.server.live o) r)) mirrored ?_ (by rintro s ⟨⟩)).trans ?_
    · intro s other
      simp only [current]
      exact update_of_ne s other
    · refine (and_iff_left (by rintro ⟨⟩)).trans ?_
      simp only [current, Function.update_self, Traced.Safe, here, Option.mem_some_iff,
        forall_eq']
      exact Traced.mirrors_refresh_iff (wf.ids r o here) mirrors
  | resetAuth r =>
    obtain ⟨o, here, rfl⟩ := Option.map_eq_some_iff.mp moved
    have mirrors := mirrored.1 r o here
    refine (mirrored_touch_iff (touches_store here rfl (fun _ => id) id
      (ownChange_resetAuth (t.server.live o) r)) mirrored (fun s other => ?_)
      (by rintro s ⟨⟩)).trans ?_
    · exact update_of_ne s other
    · refine (and_iff_left (by rintro ⟨⟩)).trans ?_
      simp only [Traced.currentAfter, Function.update_self, Traced.Safe, here,
        Option.mem_some_iff, forall_eq']
      exact Traced.mirrors_drop_iff (wf.ids r o here) mirrors (t.server.live o) rfl rfl rfl rfl
  | setSessionInternalPush keyId sessionId env =>
    simp only [Server.step] at moved
    split at moved
    · rename_i unknown
      obtain rfl := Option.some.inj moved
      have current : t.currentAfter (.setSessionInternalPush keyId sessionId env) =
          t.current := by
        simp only [Traced.currentAfter, unknown]
      refine iff_of_true ⟨?_, by rintro s ⟨⟩⟩ ?_
      · rw [current]
        exact mirrored.1
      · simp only [Traced.Safe, unknown, Option.mem_def, reduceCtorEq, false_implies,
          implies_true]
    · rename_i r known
      obtain ⟨o, here, rfl⟩ := Option.map_eq_some_iff.mp moved
      have mirrors := mirrored.1 r o here
      have current : t.currentAfter (.setSessionInternalPush keyId sessionId env) =
          Function.update t.current r (t.refreshed r o.withInternalPush true env) := by
        simp only [Traced.currentAfter, known, here]
      refine (mirrored_touch_iff (touches_setSessionInternalPush here env) mirrored ?_
        (by rintro s ⟨⟩)).trans ?_
      · intro s other
        rw [current]
        exact update_of_ne s other
      · refine (and_iff_left (by rintro ⟨⟩)).trans ?_
        simp only [current, Function.update_self, Traced.Safe, known, here, Option.mem_some_iff,
          forall_eq']
        exact mirrors_setSessionInternalPush_iff (wf.ids r o here) mirrors
  | channelSubscribe channelIds userIds subscribe =>
    obtain rfl := Option.some.inj moved
    exact mirrored_channelSubscribe_iff mirrored channelIds userIds subscribe
  | finalize r =>
    obtain ⟨o, here, rfl⟩ := Option.map_eq_some_iff.mp moved
    have mirrors := mirrored.1 r o here
    refine (mirrored_touch_iff (touches_finalize here) mirrored (fun _ _ => rfl)
      (by rintro s ⟨⟩; rfl)).trans ?_
    refine (and_iff_right (mirrors_finalize mirrors)).trans ?_
    simp only [forall_const, Traced.Safe, here, Option.mem_some_iff, forall_eq']
    exact finalize_inNoTable_iff wf here mirrors
  | cacheExpires userId =>
    obtain rfl := Option.some.inj moved
    exact iff_of_true ⟨mirrored.1, by rintro s ⟨⟩⟩ trivial

end Steps

theorem wellformed_start : Server.start.Wellformed where
  ids := by rintro r o ⟨⟩
  unknown := fun _ _ => rfl
  byId := by rintro k r ⟨⟩
  registered := by rintro k r ⟨⟩

theorem mirrored_start : Traced.start.Mirrored := ⟨by rintro r o ⟨⟩, by rintro r ⟨⟩⟩

/-- What a run of safe events keeps. -/
structure Traced.Sound (t : Traced) : Prop where
  wellformed : t.server.Wellformed
  mirrored : t.Mirrored

theorem sound_start : Traced.start.Sound := ⟨wellformed_start, mirrored_start⟩

private theorem step_server {t t' : Traced} {e : Event} (happens : t.step e = some t') :
    t.server.step e = some t'.server := by
  obtain ⟨server, moved, rfl⟩ := Option.map_eq_some_iff.mp happens
  exact moved

theorem sound_step (t : Traced) (e : Event) (t' : Traced) (sound : t.Sound) (safe : t.Safe e)
    (happens : t.step e = some t') : t'.Sound where
  wellformed := wellformed_step sound.wellformed (step_server happens)
  mirrored := (mirrored_step_iff sound.wellformed sound.mirrored happens).mpr safe

/-- The tables mirror the sessions all along a run exactly when every event of the run is safe. -/
theorem tablesMirrorSessions_iff {es : List Event} {t : Traced}
    (run : runFrom Traced.step Traced.start es = some t) :
    HoldsAlong Traced.step Traced.Mirrored Traced.start es ↔
      StepsMeet Traced.step Traced.Safe Traced.start es :=
  holdsAlong_iff_stepsMeet (fun _ => Traced.Sound.mirrored) sound_step
    (fun _ _ _ sound risky happens after =>
      risky ((mirrored_step_iff sound.wellformed sound.mirrored happens).mp after))
    sound_start run

/-- A session of user 1 that loads channel 3. -/
def sampleReadings : Readings where
  now := 100
  keyData := none
  authorization := some ⟨9, 1, false, false, by decide, by decide⟩
  channelsNow := 400
  participants := [3]

/-- The session joins channel 4 and leaves it again, reconnects, and is finalized. -/
def joinAndLeave : List Event :=
  [.getOrCreate 5 (some 5) 7, .connect 0, .refreshAuthMaybe 0 false sampleReadings,
    .channelSubscribe [4] [1] true, .channelSubscribe [4] [1] false, .disconnect 0, .connect 0,
    .finalize 0]

theorem joinAndLeave_mirrored :
    HoldsAlong Traced.step Traced.Mirrored Traced.start joinAndLeave :=
  (tablesMirrorSessions_iff rfl).mpr (by decide)

def leaveAndReconnect : List Event :=
  [.getOrCreate 5 (some 5) 7, .connect 0, .refreshAuthMaybe 0 false sampleReadings,
    .channelSubscribe [3] [1] false, .disconnect 0, .connect 0]

/-- Reconnecting subscribes a session again to a channel that its user has left. -/
theorem left_channel_returns :
    ¬ ∀ es t, runFrom Traced.step Traced.start es = some t → t.Mirrored := by
  intro claim
  have mirrored := claim leaveAndReconnect _ rfl
  have stale : (3 : Nat) ∈ (∅ : Finset Nat) := (mirrored.1 0 _ rfl).channels (by decide)
  cases stale

end Piltover.MessageBroker

import ProjectNight.Theory.Moves

/-!
# Display Names

Two notions of a display name meet in the server. The login checks and the
session table work on length-delimited bytes, and there names are unique: the
scan of `IsDisplayNameTaken` skips the requester, so a re-login under one's own
name passes and every other collision is caught. The encoders work on
`display_name.c_str()`, which ends at the first NUL byte. Names that differ
only behind a NUL are different to the first and equal to the second, and a
name that starts with one is empty on the wire.

So what clients are shown is as unique as the table exactly as long as no
accepted name has a NUL byte in it. `NightProtocol::CreateString`, which the
client uses for the same field, passes the length along and would keep the two
notions together.

## Main definitions

* `PresentedAs`: A string some encoder puts into a message for a session.
* `DistinctlyPresented`: Nobody can be taken for somebody else.
* `NulFree`: The condition on accepted names.
* `sampleEnv`: An environment to run concrete events in.

## Theorems

* `update_names`: Login state, names and rooms fit together after every list
  of events.
* `update_nulFree`: Names stay free of NUL bytes when accepted names are.
* `update_distinctlyPresented`: Distinct sessions are shown under distinct
  non-empty names then.
-/

namespace ProjectNight

/-- An environment for runs on concrete events. The size guard reads only the
    length of a buffer, and the buffers of the short messages in such runs
    have between 1 and 2048 bytes. -/
def sampleEnv : Env where
  toIteration := Iteration.ascending
  buildMessage _ := List.replicate 96 0
  currentTimestampMs n := UInt64.ofNat n

/-- The strings the encoders put into messages for a session, as `ToUtf8`
    reads them back. -/
inductive PresentedAs (session : SessionState) : Bytes → Prop where
  | userInfo : PresentedAs session (toUtf8 (buildUserInfo session).displayName)
  | chatBroadcast (roomId : UInt32) (content : Bytes) (timestamp : UInt64) :
      PresentedAs session (toUtf8 (createChatBroadcastDirect roomId session.userId
        session.displayName content timestamp).senderName)

/-- Both encoders show the part of the name before its first NUL byte. -/
theorem presentedAs_iff (session : SessionState) (name : Bytes) :
    PresentedAs session name ↔ name = cStr session.displayName := by
  constructor
  · intro h
    cases h with
    | userInfo => rfl
    | chatBroadcast roomId content timestamp => rfl
  · intro h
    rw [h]
    exact PresentedAs.userInfo

/-- Any two logged-in sessions are shown under different non-empty names. -/
def DistinctlyPresented (rs : RoomSystem) : Prop :=
  ∀ s t a b x y, s ≠ t → rs.findSession s = some a → rs.findSession t = some b →
    a.loggedIn = true → b.loggedIn = true → PresentedAs a x → PresentedAs b y →
      x ≠ [] ∧ y ≠ [] ∧ x ≠ y

/-- The requested name has no NUL byte. -/
def NulFree (_ : RoomSystem) (_ : UInt32) (name : Bytes) : Prop := (0 : UInt8) ∉ name

namespace GameLogicSystem

/-- After every list of events: a session in a room is logged in; a logged-in
    session has a name of 1 to 32 bytes, any other has neither a name nor a
    room; and no two logged-in sessions have the same name. -/
theorem update_names (env : Env) (events : List ServerEvent) :
    let rs := (update env initial events).roomSystem
    (∀ s r, rs.IsMember s r →
      ∃ session, rs.findSession s = some session ∧ session.loggedIn = true) ∧
    (∀ s session, rs.findSession s = some session → session.roomId ≠ noRoomId →
      session.loggedIn = true) ∧
    (∀ s session, rs.findSession s = some session → session.loggedIn = true →
      1 ≤ session.displayName.length ∧ session.displayName.length ≤ 32) ∧
    (∀ s session, rs.findSession s = some session → session.loggedIn = false →
      session.displayName = [] ∧ session.roomId = noRoomId) ∧
    (∀ s t a b, s ≠ t → rs.findSession s = some a → rs.findSession t = some b →
      a.loggedIn = true → b.loggedIn = true → a.displayName ≠ b.displayName) := by
  intro rs
  have hw : rs.WellFormed := update_wellFormed env events
  refine ⟨fun s r hm => ?_, fun s session hs hr => hw.loggedIn hs hr, fun s session hs hl => ?_,
    hw.anonymous, hw.name_unique⟩
  · rcases hw.session_of_isMember hm with ⟨session, hs, hr, hne⟩
    exact ⟨session, hs, hw.loggedIn hs (hr ▸ hne)⟩
  · have hbounds := hw.name_bounds s session hs hl
    exact ⟨List.length_pos_iff.mpr hbounds.1, hbounds.2⟩

/-- A move keeps every name in the table free of NUL bytes, if the name it
    accepts is. -/
theorem nulFree_move {env : Env} {allowed : RoomSystem → UInt32 → Bytes → Prop}
    (hallowed : ∀ rs s name, allowed rs s name → NulFree rs s name)
    (rs : RoomSystem) (calls : List QueueCall) (rs' : RoomSystem)
    (h : rs.WellFormed ∧ ∀ s session, rs.findSession s = some session →
      (0 : UInt8) ∉ session.displayName)
    (hm : Move env allowed rs calls rs') :
    rs'.WellFormed ∧ ∀ s session, rs'.findSession s = some session →
      (0 : UInt8) ∉ session.displayName := by
  refine ⟨wellFormed_move rs calls rs' h.1 hm, fun t session ht => ?_⟩
  -- A placement changes no name.
  have hassign : ∀ s r, (rs.assign s r).findSession t = some session →
      (0 : UInt8) ∉ session.displayName := by
    intro s r ht
    rw [RoomSystem.findSession_assign] at ht
    by_cases hst : s = t
    · rw [if_pos hst, Option.map_eq_some_iff] at ht
      rcases ht with ⟨old, hold, rfl⟩
      exact h.2 t old hold
    · rw [if_neg hst] at ht
      exact h.2 t session ht
  cases hm with
  | connect s =>
      rw [RoomSystem.findSession_addSession] at ht
      by_cases hst : s = t
      · rw [if_pos hst, Option.some.injEq] at ht
        cases hold : rs.findSession t with
        | none =>
            rw [hold, Option.getD_none] at ht
            rw [← ht]
            exact List.not_mem_nil
        | some old =>
            rw [hold, Option.getD_some] at ht
            exact ht ▸ h.2 t old hold
      · rw [if_neg hst] at ht
        exact h.2 t session ht
  | login s requestId name haccepted hallow =>
      rw [RoomSystem.findSession_setLoggedIn] at ht
      by_cases hst : s = t
      · rw [if_pos hst, Option.map_eq_some_iff] at ht
        rcases ht with ⟨old, _, rfl⟩
        exact hallowed rs s name hallow
      · rw [if_neg hst] at ht
        exact h.2 t session ht
  | leave s old hs hroom hlogged => exact hassign s noRoomId ht
  | enter s requestId r old room hs hroom hlogged hr => exact hassign s r ht
  | remove s hroom =>
      rw [RoomSystem.findSession_removeSession h.1.toConsistent] at ht
      by_cases hst : s = t
      · rw [if_pos hst] at ht
        exact absurd ht (by simp only [reduceCtorEq, not_false_eq_true])
      · rw [if_neg hst] at ht
        exact h.2 t session ht
  | chat s old content reads hs hroom hlogged => exact h.2 t session ht
  | reply s m hm => exact h.2 t session ht

/-- When no accepted name has a NUL byte, no name in the table has one. -/
theorem update_nulFree {env : Env} {allowed : RoomSystem → UInt32 → Bytes → Prop}
    (hallowed : ∀ rs s name, allowed rs s name → NulFree rs s name)
    (events : List ServerEvent) (h : LoginsAllowed env allowed initial events) :
    ∀ s session, (update env initial events).roomSystem.findSession s = some session →
      (0 : UInt8) ∉ session.displayName := by
  rcases update_emits events initial RoomSystem.wellFormed_init h with ⟨calls, hrun, _⟩
  have hinit : RoomSystem.init.WellFormed ∧ ∀ s session,
      RoomSystem.init.findSession s = some session → (0 : UInt8) ∉ session.displayName := by
    refine ⟨RoomSystem.wellFormed_init, fun s session hs => ?_⟩
    rw [RoomSystem.findSession_init] at hs
    exact absurd hs (by simp only [reduceCtorEq, not_false_eq_true])
  exact (hrun.invariant (nulFree_move hallowed) hinit).2

/-- In every run whose accepted names have no NUL byte, distinct logged-in
    sessions are shown to clients under distinct non-empty names. -/
theorem update_distinctlyPresented (env : Env) (events : List ServerEvent)
    (h : LoginsAllowed env NulFree initial events) :
    DistinctlyPresented (update env initial events).roomSystem := by
  have hw := update_wellFormed env events
  have hnul := update_nulFree (fun _ _ _ hn => hn) events h
  intro s t a b x y hst ha hb hla hlb hx hy
  -- Without a NUL byte, what is shown is the name itself.
  rw [presentedAs_iff, cStr_eq_self _ (hnul s a ha)] at hx
  rw [presentedAs_iff, cStr_eq_self _ (hnul t b hb)] at hy
  rw [hx, hy]
  exact ⟨(hw.name_bounds s a ha hla).1, (hw.name_bounds t b hb hlb).1,
    hw.name_unique s t a b hst ha hb hla hlb⟩

/-- Two sessions that log in as `ab` and `ac`. -/
theorem update_distinctlyPresented_two : DistinctlyPresented (update sampleEnv initial
    [.sessionConnected 1, .sessionConnected 2, .loginRequest 1 1 [97, 98],
      .loginRequest 2 1 [97, 99]]).roomSystem := by
  refine update_distinctlyPresented sampleEnv _ ⟨?_, ?_, ?_, ?_, trivial⟩
  · intro s requestId name h
    exact absurd h (by simp only [reduceCtorEq, not_false_eq_true])
  · intro s requestId name h
    exact absurd h (by simp only [reduceCtorEq, not_false_eq_true])
  · intro s requestId name h _
    rw [ServerEvent.loginRequest.injEq] at h
    rw [← h.2.2]
    unfold NulFree
    decide
  · intro s requestId name h _
    rw [ServerEvent.loginRequest.injEq] at h
    rw [← h.2.2]
    unfold NulFree
    decide

/-- Two names that differ only behind a NUL byte pass the uniqueness check and
    are both shown as `a`. -/
theorem not_distinctlyPresented_nul : ¬ DistinctlyPresented (update sampleEnv initial
    [.sessionConnected 1, .sessionConnected 2, .loginRequest 1 1 [97, 0, 98],
      .loginRequest 2 1 [97, 0, 99]]).roomSystem := by
  intro h
  have hclash := h 1 2 ⟨1, 1, [97, 0, 98], noRoomId, true⟩ ⟨2, 2, [97, 0, 99], noRoomId, true⟩
    [97] [97] (by decide) (by decide) (by decide) rfl rfl
    ((presentedAs_iff _ _).mpr rfl) ((presentedAs_iff _ _).mpr rfl)
  exact hclash.2.2 rfl

end GameLogicSystem

end ProjectNight

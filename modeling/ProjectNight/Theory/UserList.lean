import ProjectNight.Lib.Machine
import ProjectNight.Theory.CurrentRoom
import ProjectNight.Theory.Listing

/-!
# The List of Users

The list of users of a window is right in every run over one connection in
which the joins and the logins are as `Theory.Listing` asks for. What is
compared with the server is the list the window will have once it has caught
up: processing a message does not change that list, and an event of the game
logic changes it as its messages say.

Without the condition on joins it fails. `ApplyJoinedRoom` sets the room and
leaves the list as it is, so whoever was in the old room stays on it.

## Main definitions

* `Conversation.usersView`: The list once everything has been processed.
* `Conversation.ordinary`: One connection, and every session logs in once with
  a name of its own.
* `Conversation.keepsUp`: The condition on joins.
* `Conversation.UsersListed`: The list has the names of the room, each once.
* `Conversation.Watched`: What every step keeps.

## Theorems

* `listing_handles`: An event keeps the list right.
* `watched_step`: So does a step.
* `conversation_userList`: It is right in every run that meets the condition.
-/

namespace ProjectNight

namespace Conversation

/-- The users the window lists once it has processed everything on the way. -/
def usersView (wx : Wx) (s : Conversation) (c : UInt32) : List WxString :=
  (s.pending c).foldl (usersAfter wx) s.window.userList

/-- The connection is kept, and every session logs in once, under a name
    without NUL bytes that no other has in any spelling. -/
def ordinary (wx : Wx) (s : Conversation) (a : Action) : Bool :=
  a ≠ .lost && (s.event a).all (firstLogin wx s.game.roomSystem)

/-- The window leaves a room only when it is alone in it, and meets nobody
    whose name cannot be written. -/
def keepsUp (codec : Codec) (wx : Wx) (s : Conversation) (a : Action) : Bool :=
  s.session.all fun c =>
    (s.event a).all (cleanJoin codec.toIteration wx s.game.roomSystem c)

/-- The list of users has the window's own name and the names of the others in
    room `r`, each once. -/
def UsersListed (it : Iteration) (wx : Wx) (s : Conversation) (c r : UInt32) : Prop :=
  ∃ session, s.game.roomSystem.findSession c = some session ∧
    s.window.userList.Perm (wx.text session ::
      (s.game.roomSystem.getRoomMembers it r (some c)).map wx.text)

/-- The game logic has heard that the session of the window has ended. -/
def Gone (s : Conversation) (c : UInt32) : Prop :=
  s.admitted = true ∧ s.game.roomSystem.findSession c = none

/-- As long as the session lasts, what the window will list is right. -/
structure Watched (codec : Codec) (wx : Wx) (s : Conversation) : Prop extends Sound codec s where
  orderly : Orderly wx s.game.roomSystem
  unused : s.session = none → s.window.userList = []
  named : ∀ c, s.session = some c → ∀ m ∈ s.pending c, m.IsNamed
  listing : ∀ c, s.session = some c →
    s.Gone c ∨ Listing wx s.game.roomSystem c (s.usersView wx c)

theorem watched_start (codec : Codec) (wx : Wx) : Watched codec wx (start wx) :=
  { sound_start codec wx with
    orderly := by
      refine ⟨fun t session ht => ?_, fun t _ session _ _ ht => ?_⟩
      · rw [show (start wx).game.roomSystem = RoomSystem.init from rfl,
          RoomSystem.findSession_init] at ht
        cases ht
      · rw [show (start wx).game.roomSystem = RoomSystem.init from rfl,
          RoomSystem.findSession_init] at ht
        cases ht
    unused := fun _ => by
      simp only [start, ChatWindow.loadMockData, ChatWindow.createMockEvents, List.foldl_cons,
        List.foldl_nil, ChatWindow.processProtocolEvent,
        ChatWindow.userList_appendSystemMessage, ChatWindow.applyRoomList]
    named := fun _ hc => by cases hc
    listing := fun _ hc => by cases hc }

section Steps

variable {codec : Codec} {wx : Wx} (hcodec : codec.Faithful)
  (hnotices : codec.toEnv.NoticesFit) (hlogins : codec.toEnv.LoginResponsesFit)
  (hrefl : ∀ x, wx.sameNoCase x x = true) {s t : Conversation}

-- A window that has just connected lists nobody, and there is nobody to list.
theorem listing_fresh {rs : RoomSystem} (hw : rs.WellFormed) {c : UInt32}
    (hfresh : rs.findSession c = none) : Listing wx rs c [] := by
  have hout : ∀ session, rs.findSession c = some session → session.loggedIn = false :=
    fun session hs => by cases hfresh.symm.trans hs
  refine ⟨⟨List.nodup_nil, fun x => ⟨fun hx => absurd hx List.not_mem_nil, fun hx => ?_⟩⟩,
    fun r t _ hcm => ?_⟩
  · exact absurd hx.2 (not_shown_of_not_loggedIn hw hout x)
  · rcases hw.session_of_isMember hcm with ⟨session, hs, _⟩
    cases hfresh.symm.trans hs

include hnotices hlogins hrefl

/-- An event keeps the list of the window right, or ends its session. -/
theorem listing_handles (h : Watched codec wx s) {a : Action} {e : ServerEvent}
    {requests : List ServerEvent} {admitted : Bool} {c : UInt32} (hc : s.session = some c)
    (hown : e.sessionId = c → Own s c a e admitted)
    (hother : s.session ≠ some e.sessionId → admitted = s.admitted)
    (hlogin : firstLogin wx s.game.roomSystem e = true)
    (hjoin : cleanJoin codec.toIteration wx s.game.roomSystem c e = true) :
    { s.handle codec e with requests, admitted }.Gone c ∨
      Listing wx (s.handle codec e).game.roomSystem c
        ({ s.handle codec e with requests, admitted }.usersView wx c) := by
  have hperforms := GameLogicSystem.handleEvent_performs codec.toEnv h.wellFormed e
  have hrs : (s.handle codec e).game.roomSystem = _ := hperforms.roomSystem
  have hheard := heard_effect codec.toEnv s.game.clockReads h.wellFormed e
    (fun he => (hown he).kind)
  have hadmitted : s.admitted = true → admitted = true := by
    intro hin
    by_cases hec : e.sessionId = c
    · cases hown hec <;> rfl
    · rw [hother (fun hc' => hec (Option.some.inj (hc'.symm.trans hc))), hin]
  rcases h.listing c hc with hgone | hlisting
  · -- Nothing but the announcement of the session makes an entry for it.
    refine Or.inl ⟨hadmitted hgone.1, ?_⟩
    change (s.handle codec e).game.roomSystem.findSession c = none
    rw [hrs, RoomSystem.findSession_change]
    by_cases hec : e.sessionId = c
    · rw [if_pos hec, hgone.2]
      cases hown hec with
      | request a e hwindow _ =>
          cases hwindow with
          | login requestId name =>
              rw [effect, loginEffect, hgone.2]
              rfl
          | roomList requestId => rfl
          | join requestId r =>
              rw [effect, joinEffect, hgone.2]
              rfl
          | chat requestId content => rfl
      | announce hout => cases hgone.1.symm.trans hout
      | drop _ => rfl
    · rw [if_neg hec]
      exact hgone.2
  · by_cases hended : e = .sessionDisconnected c
    · refine Or.inl ⟨?_, ?_⟩
      · subst hended
        cases hown rfl <;> rfl
      · change (s.handle codec e).game.roomSystem.findSession c = none
        rw [hrs, hended]
        exact (RoomSystem.findSession_change _ c c .remove).trans (if_pos rfl)
    · right
      have hw' := GameLogicSystem.wellFormed_handleEvent codec.toEnv h.wellFormed e
      rw [hperforms.roomSystem] at hw'
      have hafter := hheard.listing hrefl h.wellFormed h.orderly hw' hended hlogin hjoin hlisting
      rw [hrs]
      -- What the guard drops would have changed nothing.
      have hview : { s.handle codec e with requests, admitted }.usersView wx c
          = (messagesFor c (effect codec.toEnv s.game.clockReads s.game.roomSystem
              e).messages).foldl (usersAfter wx) (s.usersView wx c) := by
        unfold usersView
        rw [pending_handles h.toSound hc e requests admitted, List.foldl_append]
        refine foldl_filter_of_idle (usersAfter wx) _ _ (fun m hm hfits users => ?_) _
        exact usersAfter_of_isSilent wx
          (hheard.silent_of_not_fits hnotices hlogins h.wellFormed hm hfits) users
      rw [hview]
      exact hafter

include hcodec

theorem watched_step {a : Action} (h : Watched codec wx s)
    (hcond : (s.ordinary wx a && s.keepsUp codec wx a) = true)
    (hstep : step codec wx s a = some t) : Watched codec wx t := by
  have houtcome := outcome_of_step h.requests hstep
  have hsound := sound_outcome h.toSound houtcome
  rw [Bool.and_eq_true, ordinary, Bool.and_eq_true] at hcond
  rcases hcond with ⟨⟨hkept, hlogin⟩, hjoin⟩
  cases houtcome with
  | clicks a window more next hroom husers hmore hevent =>
      refine { hsound with
        orderly := h.orderly, unused := fun hnone => husers.trans (h.unused hnone)
        named := h.named, listing := fun c hc => ?_ }
      rcases h.listing c hc with hgone | hlisting
      · exact Or.inl hgone
      · unfold usersView at hlisting ⊢
        simp only [husers]
        exact Or.inr hlisting
  | connects c name hsession hfresh hqueue =>
      -- The first connection: nothing is on the way, and nobody is listed.
      have hnone : (s.onConnectClicked wx c name).pending c = [] :=
        pending_eq_nil (congrArg List.length hqueue).symm
      have husers : (s.onConnectClicked wx c name).window.userList = [] :=
        (ChatWindow.userList_appendSystemMessage _ _).trans (h.unused hsession)
      refine { hsound with
        orderly := h.orderly, unused := fun hc => by cases hc
        named := fun c' hc' m hm => ?_, listing := fun c' hc' => Or.inr ?_ }
      · have hsame : c = c' := Option.some.inj hc'
        rw [← hsame, hnone] at hm
        exact absurd hm List.not_mem_nil
      · have hsame : c = c' := Option.some.inj hc'
        rw [← hsame, usersView, hnone, List.foldl_nil, husers]
        exact listing_fresh h.wellFormed hfresh
  | processes c out hsession hout =>
      have hfirst := pending_processes hout (processMessage codec wx s.window out.payload)
      have hmem : out.payload ∈ s.pending c := hfirst ▸ List.mem_cons_self
      refine { hsound with
        orderly := h.orderly, unused := fun hnone => by cases hsession.symm.trans hnone
        named := fun c' hc' m hm => ?_, listing := fun c' hc' => ?_ }
      · have hsame : c = c' := Option.some.inj (hsession.symm.trans hc')
        rw [← hsame] at hm
        exact h.named c hsession m (hfirst ▸ List.mem_cons_of_mem _ hm)
      · have hsame : c = c' := Option.some.inj (hsession.symm.trans hc')
        have hlisting := h.listing c hsession
        rw [usersView, hfirst, List.foldl_cons] at hlisting
        rw [← hsame, usersView, userList_processMessage hcodec wx
          (fits_of_mem_pending h.toSound hmem) (h.named c hsession _ hmem)]
        exact hlisting
  | handles a e requests admitted hevent hrequests hown hother =>
      rw [hevent, Option.all_some] at hlogin
      have hrs := (GameLogicSystem.handleEvent_performs codec.toEnv h.wellFormed e).roomSystem
      refine { hsound with
        orderly := ?_, unused := h.unused, named := fun c hc m hm => ?_
        listing := fun c hc => ?_ }
      · change Orderly wx (s.game.handleEvent codec.toEnv e).roomSystem
        rw [hrs]
        exact orderly_effect codec.toEnv s.game.clockReads h.orderly hlogin
      · have hsession : s.session = some c := hc
        rw [pending_handles h.toSound hsession e requests admitted] at hm
        rcases List.mem_append.mp hm with hm | hm
        · exact h.named c hsession m hm
        · exact (heard_effect codec.toEnv s.game.clockReads h.wellFormed e
            (fun he => (hown c hsession he).kind)).named hlogin m (List.mem_of_mem_filter hm)
      · have hsession : s.session = some c := hc
        rw [keepsUp, hsession, Option.all_some, hevent, Option.all_some] at hjoin
        exact listing_handles hnotices hlogins hrefl h hsession (hown c hsession) hother hlogin
          hjoin
  | disconnected =>
      exact { hsound with
        orderly := h.orderly, unused := h.unused, named := h.named, listing := h.listing }
  | lost window hroom husers => exact absurd hkept (by decide)

end Steps

-- Names that are listed for different sessions are different.
theorem nodup_texts {wx : Wx} (hrefl : ∀ x, wx.sameNoCase x x = true) {rs : RoomSystem}
    (ho : Orderly wx rs) {l : List SessionState} (hids : (l.map SessionState.sessionId).Nodup)
    (hl : ∀ m ∈ l, rs.findSession m.sessionId = some m ∧ m.loggedIn = true ∧ wx.text m ≠ []) :
    (l.map wx.text).Nodup := by
  refine List.Nodup.map_on (fun m hm m' hm' heq => ?_) (List.Nodup.of_map _ hids)
  by_contra hne
  have hid : m.sessionId ≠ m'.sessionId := by
    intro hid
    have hsame := (hl m hm).1
    rw [hid, (hl m' hm').1, Option.some.injEq] at hsame
    exact hne hsame.symm
  have hapart := ho.apart _ _ m m' hid (hl m hm).1 (hl m' hm').1 (hl m hm).2.1 (hl m' hm').2.1
    (hl m hm).2.2 (hl m' hm').2.2
  rw [heq, hrefl] at hapart
  exact Bool.false_ne_true hapart.symm

-- A list that is right has the names of the room.
theorem perm_of_listing {wx : Wx} (hrefl : ∀ x, wx.sameNoCase x x = true) {rs : RoomSystem}
    (hw : rs.WellFormed) (ho : Orderly wx rs) {c r : UInt32} {users : List WxString}
    (h : Listing wx rs c users) (it : Iteration) (hcm : rs.IsMember c r) {session : SessionState}
    (hs : rs.findSession c = some session) :
    users.Perm (wx.text session :: (rs.getRoomMembers it r (some c)).map wx.text) := by
  have hroom : ∀ t m, rs.findSession t = some m → rs.IsMember t r →
      m.loggedIn = true ∧ m.sessionId = t := by
    intro t m ht htm
    rcases hw.session_of_isMember htm with ⟨m', ht', hr, hne⟩
    rw [ht, Option.some.injEq] at ht'
    exact ⟨hw.loggedIn ht (ht' ▸ hr ▸ hne), (hw.session_key t m ht).1⟩
  -- The window's session and the others of the room, by their entries.
  have hall : ∀ m ∈ session :: rs.getRoomMembers it r (some c),
      rs.findSession m.sessionId = some m ∧ rs.IsMember m.sessionId r := by
    intro m hm
    rcases List.mem_cons.mp hm with rfl | hm
    · rw [(hroom c m hs hcm).2]
      exact ⟨hs, hcm⟩
    · exact ⟨(hw.findSession_of_mem hm).1, (hw.findSession_of_mem hm).2.2.1⟩
  have hids : ((session :: rs.getRoomMembers it r (some c)).map SessionState.sessionId).Nodup := by
    rw [List.map_cons, List.nodup_cons, (hroom c session hs hcm).2]
    refine ⟨fun hc => ?_, hw.nodup_getRoomMembers it r (some c)⟩
    exact ((hw.mem_map_getRoomMembers it r (some c) c).mp hc).2 rfl
  have hnodup := nodup_texts hrefl ho hids (fun m hm =>
    ⟨(hall m hm).1, (hroom _ m (hall m hm).1 (hall m hm).2).1,
      h.legible r _ m hcm (hall m hm).2 (hall m hm).1⟩)
  refine (List.perm_ext_iff_of_nodup h.lists.nodup hnodup).mpr (fun x => ?_)
  rw [h.lists.mem, List.mem_map]
  constructor
  · rintro ⟨_, t, m, ht, _, hsees, rfl⟩
    by_cases htc : t = c
    · rw [htc, hs, Option.some.injEq] at ht
      exact ⟨session, List.mem_cons_self, by rw [ht]⟩
    · -- Another session that is seen is in the same room.
      have hmr := (sees_iff hw.toConsistent htc ht).mp hsees
      rcases hw.session_of_isMember hmr with ⟨own, hown, hownr, hne⟩
      rcases hw.session_of_isMember hcm with ⟨own', hown', hownr', _⟩
      rw [hown, Option.some.injEq] at hown'
      have hsame : m.roomId = r := hownr.symm.trans (hown' ▸ hownr')
      have htm : rs.IsMember t r := hsame ▸ hw.isMember_of_session ht hne
      refine ⟨m, List.mem_cons_of_mem _ (mem_getRoomMembers_of_isMember hw.toConsistent it
        (some c) (fun hc => htc (Option.some.inj hc).symm) ht htm), rfl⟩
  · rintro ⟨m, hm, rfl⟩
    refine ⟨h.legible r _ m hcm (hall m hm).2 (hall m hm).1, m.sessionId, m, (hall m hm).1,
      (hroom _ m (hall m hm).1 (hall m hm).2).1, Or.inr ⟨r, hcm, (hall m hm).2⟩, rfl⟩

/-- In every run over one connection in which sessions log in once under names
    of their own, the window leaves rooms only when it is alone in them, and
    everybody it meets has a name that can be written: whenever it is in a
    room and has processed all messages, its list of users has its own name
    and those of the others in the room, each once. -/
theorem conversation_userList (codec : Codec) (wx : Wx) (hcodec : codec.Faithful)
    (hnotices : codec.toEnv.NoticesFit) (hlogins : codec.toEnv.LoginResponsesFit)
    (hrefl : ∀ x, wx.sameNoCase x x = true) (actions : List Action) (s : Conversation)
    (hrun : Machine.run (step codec wx) (start wx) actions = some s)
    (hordinary : Machine.Respects (step codec wx) (ordinary wx) (start wx) actions = true)
    (hcond : Machine.Respects (step codec wx) (keepsUp codec wx) (start wx) actions = true)
    (c r : UInt32) (hc : s.session = some c) (hread : s.read = (s.queuedFor c).length)
    (hmember : s.game.roomSystem.IsMember c r) : s.UsersListed codec.toIteration wx c r := by
  have h := Machine.invariant_of_respects
    (fun _ _ _ h hc hstep => watched_step hcodec hnotices hlogins hrefl h hc hstep) hrun
    (Machine.respects_and hordinary hcond) (watched_start codec wx)
  rcases h.wellFormed.session_of_isMember hmember with ⟨session, hs, _⟩
  refine ⟨session, hs, ?_⟩
  rcases h.listing c hc with hgone | hlisting
  · cases hgone.2.symm.trans hs
  · rw [usersView, pending_eq_nil hread, List.foldl_nil] at hlisting
    exact perm_of_listing hrefl h.wellFormed h.orderly hlisting codec.toIteration hmember hs

/-- Session 2 logs in as `b` and goes to the lobby. -/
def someoneInLobby : List Action :=
  [.other (.sessionConnected 2), .other (.loginRequest 2 1 [98]),
    .other (.joinRoomRequest 2 2 1001)]

/-- The user joins the lobby and is told of session 2. -/
def meetInLobby : List Action :=
  someoneInLobby ++ signIn 1 ++ [.joinClicked 0, .serve, .process, .process, .process]

/-- Session 2 leaves, the user goes to the next room, and session 2 follows. -/
def meetAgain : List Action :=
  meetInLobby ++ [.other (.leaveRoomRequest 2 3), .process, .joinClicked 1, .serve, .process,
    .process, .other (.joinRoomRequest 2 4 1002), .process]

theorem asciiWx_sameNoCase_self (x : WxString) : asciiWx.sameNoCase x x = true :=
  decide_eq_true rfl

theorem conversation_userList_meetAgain :
    ∃ s, Machine.run (step plainCodec asciiWx) (start asciiWx) meetAgain = some s ∧
      s.window.userList = ["NightUser".toList, "b".toList] ∧
      s.UsersListed plainCodec.toIteration asciiWx 1 1002 := by
  have hend : (Machine.run (step plainCodec asciiWx) (start asciiWx) meetAgain).map
      (fun s => (s.window.userList, s.session, s.read, (s.queuedFor 1).length,
        decide (s.game.roomSystem.IsMember 1 1002)))
        = some (["NightUser".toList, "b".toList], some 1, 9, 9, true) := by decide +kernel
  rcases Option.map_eq_some_iff.mp hend with ⟨s, hrun, hs⟩
  simp only [Prod.mk.injEq, decide_eq_true_eq] at hs
  rcases hs with ⟨husers, hsession, hread, hqueued, hmember⟩
  refine ⟨s, hrun, husers, ?_⟩
  exact conversation_userList plainCodec asciiWx faithful_plainCodec compact_plainCodec.noticesFit
    compact_plainCodec.loginResponsesFit asciiWx_sameNoCase_self meetAgain s hrun
    (by decide +kernel) (by decide +kernel) 1 1002 hsession (hread.trans hqueued.symm) hmember

/-- The user leaves session 2 behind in the lobby. -/
def leaveBehind : List Action :=
  meetInLobby ++ [.joinClicked 1, .serve, .process, .process]

/-- Session 2 is still on the list, while the window is alone in its room. -/
theorem not_usersListed_leaveBehind :
    plainCodec.Faithful ∧ plainCodec.toEnv.NoticesFit ∧ plainCodec.toEnv.LoginResponsesFit ∧
    ∃ s, Machine.run (step plainCodec asciiWx) (start asciiWx) leaveBehind = some s ∧
      Machine.Respects (step plainCodec asciiWx) (ordinary asciiWx) (start asciiWx) leaveBehind
        = true ∧
      s.session = some 1 ∧ s.read = (s.queuedFor 1).length ∧
      s.game.roomSystem.IsMember 1 1002 ∧
      ¬ s.UsersListed plainCodec.toIteration asciiWx 1 1002 := by
  have hend : (Machine.run (step plainCodec asciiWx) (start asciiWx) leaveBehind).map
      (fun s => (s.window.userList, s.session, s.read, (s.queuedFor 1).length,
        decide (s.game.roomSystem.IsMember 1 1002),
        (s.game.roomSystem.getRoomMembers plainCodec.toIteration 1002 (some 1)).length))
        = some (["NightUser".toList, "b".toList], some 1, 7, 7, true, 0) := by decide +kernel
  rcases Option.map_eq_some_iff.mp hend with ⟨s, hrun, hs⟩
  simp only [Prod.mk.injEq, decide_eq_true_eq] at hs
  rcases hs with ⟨husers, hsession, hread, hqueued, hmember, hothers⟩
  refine ⟨faithful_plainCodec, compact_plainCodec.noticesFit,
    compact_plainCodec.loginResponsesFit, s, hrun, by decide +kernel, hsession,
    hread.trans hqueued.symm, hmember, ?_⟩
  rintro ⟨session, _, hperm⟩
  have hlength := hperm.length_eq
  rw [husers, List.length_cons (a := asciiWx.text session), List.length_map, hothers] at hlength
  exact absurd hlength (by decide)

end Conversation

end ProjectNight

import Mathlib.Data.List.Nodup
import ProjectNight.Theory.Screen

/-!
# Following the Members of a Room by Name

A window knows the others by name only. It adds a name when its own login is
confirmed or somebody is announced, and removes one when somebody is said to
have left. Whether the list it gets that way is right is a question about the
messages of the server, event by event, and this module answers it.

A list is right (`Listing`) when it has the names of the sessions that `Shown`
selects, each once, as far as they have a text at all. An event of another
session changes the list by that session alone, so the rest of the list is
described by `ShownBut`, which no event of that session touches.

Two things have to be kept out. A session that joins another room is not told
that it no longer sees the others, so it must not leave anybody behind. And a
name that is not valid UTF-8 converts to an empty text, which is skipped
(`cleanJoin`). Besides, names have to be told apart: `Orderly` says that no
list box would take one for another, and logins keep it so when each is the
first of its session and brings a new name (`firstLogin`).

## Main definitions

* `Wx.text`: The name of a session as the window writes it.
* `Lists`: A list without repetition of the names a predicate selects.
* `RoomSystem.Sees`, `Shown`: Whom the window should list.
* `Orderly`: Names without NUL bytes that differ even without case.
* `Listing`: A list of users that is right.
* `firstLogin`, `cleanJoin`: The conditions on logins and joins.

## Theorems

* `lists_addName`, `lists_removeName`: What the two updates do.
* `lists_partings`, `lists_members`: A departure, and the members of a room.
* `Heard.listing`: A list that is right stays right over an event.
* `orderly_effect`: Names stay apart over an event.
-/

namespace ProjectNight

/-! ### Lists of names -/

/-- The name of a session as the window writes it. -/
def Wx.text (wx : Wx) (session : SessionState) : WxString := wx.fromUTF8 session.displayName

/-- The list has every name the predicate selects once and no other; there is
    no entry for an empty name. -/
structure Lists (users : List WxString) (P : WxString → Prop) : Prop where
  nodup : users.Nodup
  mem : ∀ x, x ∈ users ↔ x ≠ [] ∧ P x

theorem Lists.congr {users : List WxString} {P Q : WxString → Prop} (h : Lists users P)
    (hPQ : ∀ x, x ≠ [] → (P x ↔ Q x)) : Lists users Q where
  nodup := h.nodup
  mem x := (h.mem x).trans (and_congr_right (hPQ x))

section Names

variable {wx : Wx} (hrefl : ∀ x, wx.sameNoCase x x = true) {users : List WxString}
  {P : WxString → Prop}

include hrefl

theorem lists_addName (h : Lists users P) (x : WxString)
    (hfree : x ≠ [] → ∀ y, y ≠ [] → P y → wx.sameNoCase y x = false) :
    Lists (addName wx users x) (fun y => P y ∨ y = x) := by
  by_cases hx : x = []
  · rw [addName, if_pos (Or.inl hx)]
    refine h.congr (fun y hy => ⟨Or.inl, fun hor => hor.resolve_right ?_⟩)
    rw [hx]
    exact hy
  -- Nothing on the list is found under this name, itself included.
  have hnew : ∀ y ∈ users, wx.sameNoCase y x = false :=
    fun y hy => hfree hx y ((h.mem y).mp hy).1 ((h.mem y).mp hy).2
  have hnot : x ∉ users := by
    intro hc
    have hsame := hnew x hc
    rw [hrefl x] at hsame
    exact Bool.false_ne_true hsame.symm
  have hadd : addName wx users x = users ++ [x] := by
    refine if_neg ?_
    rintro (hc | ⟨y, hy, hsame⟩)
    · exact hx hc
    · rw [hnew y hy] at hsame
      exact Bool.false_ne_true hsame
  rw [hadd]
  refine ⟨?_, fun y => ?_⟩
  · rw [List.nodup_append]
    refine ⟨h.nodup, List.nodup_singleton x, fun y hy z hz => ?_⟩
    rw [List.mem_singleton.mp hz]
    exact fun hc => hnot (hc ▸ hy)
  · rw [List.mem_append, h.mem, List.mem_singleton]
    constructor
    · rintro (hy | rfl)
      · exact ⟨hy.1, Or.inl hy.2⟩
      · exact ⟨hx, Or.inr rfl⟩
    · rintro ⟨hy, hP | rfl⟩
      · exact Or.inl ⟨hy, hP⟩
      · exact Or.inr rfl

-- The first match is the name itself, if it is there.
theorem removeName_eq_erase {x : WxString}
    (h : ∀ y ∈ users, y ≠ x → wx.sameNoCase y x = false) :
    removeName wx users x = users.erase x := by
  unfold removeName
  induction users with
  | nil => rfl
  | cons y users ih =>
      have htail := ih (fun z hz => h z (List.mem_cons_of_mem y hz))
      by_cases hyx : y = x
      · rw [hyx, List.erase_cons_head]
        exact List.eraseP_cons_of_pos (hrefl x)
      · have hsame := h y List.mem_cons_self hyx
        rw [List.erase_cons_tail (by rw [beq_iff_eq]; exact hyx), ← htail]
        exact List.eraseP_cons_of_neg (by rw [hsame]; exact Bool.false_ne_true)

theorem lists_removeName (h : Lists users P) (x : WxString)
    (hfree : ∀ y, y ≠ [] → P y → y ≠ x → wx.sameNoCase y x = false) :
    Lists (removeName wx users x) (fun y => P y ∧ y ≠ x) := by
  rw [removeName_eq_erase hrefl (fun y hy hyx =>
    hfree y ((h.mem y).mp hy).1 ((h.mem y).mp hy).2 hyx)]
  refine ⟨h.nodup.erase x, fun y => ?_⟩
  rw [h.nodup.mem_erase_iff, h.mem]
  constructor
  · rintro ⟨hyx, hy, hP⟩
    exact ⟨hy, hP, hyx⟩
  · rintro ⟨hy, hP, hyx⟩
    exact ⟨hyx, hy, hP⟩

end Names

/-! ### Whom the window should list -/

/-- Session `t` is `c` itself or in one room with it. -/
def RoomSystem.Sees (rs : RoomSystem) (c t : UInt32) : Prop :=
  t = c ∨ ∃ r, rs.IsMember c r ∧ rs.IsMember t r

/-- `x` is the name of a logged-in session that `c` sees. -/
def Shown (wx : Wx) (rs : RoomSystem) (c : UInt32) (x : WxString) : Prop :=
  ∃ t session, rs.findSession t = some session ∧ session.loggedIn = true ∧ rs.Sees c t ∧
    x = wx.text session

/-- The same without session `s`. -/
def ShownBut (wx : Wx) (rs : RoomSystem) (c s : UInt32) (x : WxString) : Prop :=
  ∃ t session, t ≠ s ∧ rs.findSession t = some session ∧ session.loggedIn = true ∧
    rs.Sees c t ∧ x = wx.text session

/-- Names without NUL bytes, and no two sessions whose names the window could
    mistake for each other. -/
structure Orderly (wx : Wx) (rs : RoomSystem) : Prop where
  nulFree : ∀ t session, rs.findSession t = some session → (0 : UInt8) ∉ session.displayName
  apart : ∀ t t' session session', t ≠ t' → rs.findSession t = some session →
    rs.findSession t' = some session' → session.loggedIn = true → session'.loggedIn = true →
    wx.text session ≠ [] → wx.text session' ≠ [] →
      wx.sameNoCase (wx.text session) (wx.text session') = false

/-- The list of users of session `c` is right, and everybody in the room with
    `c` has a name that can be written. -/
structure Listing (wx : Wx) (rs : RoomSystem) (c : UInt32) (users : List WxString) : Prop where
  lists : Lists users (Shown wx rs c)
  legible : ∀ r t session, rs.IsMember c r → rs.IsMember t r →
    rs.findSession t = some session → wx.text session ≠ []

section Shown

variable {wx : Wx} {rs : RoomSystem} {c s : UInt32}

theorem shown_iff (x : WxString) : Shown wx rs c x ↔ ShownBut wx rs c s x ∨
    ∃ session, rs.findSession s = some session ∧ session.loggedIn = true ∧ rs.Sees c s ∧
      x = wx.text session := by
  constructor
  · rintro ⟨t, session, ht, hlogged, hsees, hx⟩
    by_cases hts : t = s
    · subst hts
      exact Or.inr ⟨session, ht, hlogged, hsees, hx⟩
    · exact Or.inl ⟨t, session, hts, ht, hlogged, hsees, hx⟩
  · rintro (⟨t, session, _, ht, hlogged, hsees, hx⟩ | ⟨session, hs, hlogged, hsees, hx⟩)
    · exact ⟨t, session, ht, hlogged, hsees, hx⟩
    · exact ⟨s, session, hs, hlogged, hsees, hx⟩

-- A change of another session shows nothing but that session.
theorem shownBut_change (hsc : s ≠ c) (change : Change) (x : WxString) :
    ShownBut wx (rs.change s change) c s x ↔ ShownBut wx rs c s x := by
  have hfind : ∀ t, t ≠ s → (rs.change s change).findSession t = rs.findSession t := by
    intro t hts
    rw [RoomSystem.findSession_change, if_neg (fun hc => hts hc.symm)]
  have hsees : ∀ t, t ≠ s → ((rs.change s change).Sees c t ↔ rs.Sees c t) := by
    intro t hts
    unfold RoomSystem.Sees
    simp only [RoomSystem.isMember_change_other rs (fun hc => hsc hc.symm) change,
      RoomSystem.isMember_change_other rs hts change]
  constructor
  · rintro ⟨t, session, hts, ht, hlogged, hs, hx⟩
    exact ⟨t, session, hts, hfind t hts ▸ ht, hlogged, (hsees t hts).mp hs, hx⟩
  · rintro ⟨t, session, hts, ht, hlogged, hs, hx⟩
    exact ⟨t, session, hts, (hfind t hts).trans ht, hlogged, (hsees t hts).mpr hs, hx⟩

/-- `c` sees another session when it is in that session's room. -/
theorem sees_iff (hc : rs.Consistent) (hsc : s ≠ c) {session : SessionState}
    (hs : rs.findSession s = some session) : rs.Sees c s ↔ rs.IsMember c session.roomId := by
  constructor
  · rintro (heq | ⟨r, hcm, hsm⟩)
    · exact absurd heq hsc
    · rcases hc.session_of_isMember hsm with ⟨session', hs', hroom, _⟩
      rw [hs, Option.some.injEq] at hs'
      rw [hs', hroom]
      exact hcm
  · intro hcm
    rcases hc.session_of_isMember hcm with ⟨_, _, _, hne⟩
    exact Or.inr ⟨session.roomId, hcm, hc.isMember_of_session hs hne⟩

-- A member with an entry is among those a loop over the room visits.
theorem mem_getRoomMembers_of_isMember (hc : rs.Consistent) (it : Iteration) {r t : UInt32}
    (exclude : Option UInt32) (hex : exclude ≠ some t) {session : SessionState}
    (ht : rs.findSession t = some session) (htm : rs.IsMember t r) :
    session ∈ rs.getRoomMembers it r exclude := by
  have hid := (hc.mem_map_getRoomMembers it r exclude t).mpr ⟨htm, hex⟩
  rcases List.mem_map.mp hid with ⟨member, hmember, heq⟩
  have hfound := (hc.findSession_of_mem hmember).1
  rw [heq, ht, Option.some.injEq] at hfound
  exact hfound ▸ hmember

-- Nobody is taken for the session that is left out.
theorem Orderly.apart_of_shownBut (h : Orderly wx rs) {session : SessionState}
    (hs : rs.findSession s = some session) (hlogged : session.loggedIn = true)
    (htext : wx.text session ≠ []) {y : WxString} (hy : y ≠ []) (hshown : ShownBut wx rs c s y) :
    wx.sameNoCase y (wx.text session) = false := by
  rcases hshown with ⟨t, other, hts, ht, hother, _, rfl⟩
  exact h.apart t s other session hts ht hs hother hlogged hy htext

-- Without an entry there is nothing to show, and without a login nothing but
-- what the room shows, which is nothing either.
theorem not_shown_of_not_loggedIn (hw : rs.WellFormed)
    (hout : ∀ session, rs.findSession c = some session → session.loggedIn = false)
    (x : WxString) : ¬ Shown wx rs c x := by
  rintro ⟨t, session, ht, hlogged, heq | ⟨r, hcm, _⟩, _⟩
  · rw [hout session (heq ▸ ht)] at hlogged
    exact Bool.false_ne_true hlogged
  · rcases hw.session_of_isMember hcm with ⟨own, hown, hroom, hne⟩
    have hin := hw.loggedIn hown (hroom ▸ hne)
    rw [hout own hown] at hin
    exact Bool.false_ne_true hin

end Shown

/-! ### The conditions on events -/

instance (rs : RoomSystem) (s : UInt32) (name : Bytes) : Decidable (LoginAccepted rs s name) :=
  decidable_of_iff ((rs.findSession s).isSome = true ∧ name ≠ [] ∧
      name.length ≤ maxDisplayNameBytes ∧ rs.isDisplayNameTaken name s = false) (by
    unfold LoginAccepted
    rw [Option.isSome_iff_exists])

instance (rs : RoomSystem) (s r : UInt32) : Decidable (JoinAccepted rs s r) :=
  decidable_of_iff ((rs.findSession s).any (fun session =>
      session.loggedIn && (rs.findRoom r).isSome && session.roomId ≠ r) = true) (by
    unfold JoinAccepted
    simp only [Option.any_eq_true, Bool.and_eq_true, Option.isSome_iff_exists,
      decide_eq_true_eq, ne_eq]
    constructor
    · rintro ⟨session, hs, ⟨hlogged, room, hr⟩, hne⟩
      exact ⟨session, room, hs, hlogged, hr, hne⟩
    · rintro ⟨session, room, hs, hlogged, hr, hne⟩
      exact ⟨session, hs, ⟨hlogged, room, hr⟩, hne⟩)

/-- The window would not take the name for that of another session. -/
def unlikeOthers (wx : Wx) (rs : RoomSystem) (s : UInt32) (name : Bytes) : Bool :=
  rs.sessions.toList.all fun (t, session) =>
    t = s || !session.loggedIn || (wx.fromUTF8 name).isEmpty || (wx.text session).isEmpty ||
      !(wx.sameNoCase (wx.fromUTF8 name) (wx.text session)
        || wx.sameNoCase (wx.text session) (wx.fromUTF8 name))

/-- An accepted login is the first of its session, and its name has no NUL byte
    and differs from all others without regard to case. -/
def firstLogin (wx : Wx) (rs : RoomSystem) : ServerEvent → Bool
  | .loginRequest s _ name => !decide (LoginAccepted rs s name) ||
      ((rs.findSession s).all (fun session => !session.loggedIn) && !name.contains 0 &&
        unlikeOthers wx rs s name)
  | _ => true

/-- With an accepted join session `c` leaves nobody behind and finds nobody
    whose name cannot be written, itself included; nor does anybody with such
    a name join `c`. -/
def cleanJoin (it : Iteration) (wx : Wx) (rs : RoomSystem) (c : UInt32) : ServerEvent → Bool
  | .joinRoomRequest s _ r => !decide (JoinAccepted rs s r) ||
      (rs.findSession s).all fun session =>
        if s = c then
          (rs.getRoomMembers it session.roomId (some c)).isEmpty &&
            (session :: rs.getRoomMembers it r).all (fun member => wx.text member ≠ [])
        else !decide (rs.IsMember c r) || wx.text session ≠ []
  | _ => true

section Conditions

variable {wx : Wx} {rs : RoomSystem}

theorem firstLogin_spec {s requestId : UInt32} {name : Bytes}
    (h : firstLogin wx rs (.loginRequest s requestId name) = true)
    (haccepted : LoginAccepted rs s name) :
    (∀ session, rs.findSession s = some session → session.loggedIn = false) ∧
    (0 : UInt8) ∉ name ∧
    ∀ t session, t ≠ s → rs.findSession t = some session → session.loggedIn = true →
      wx.fromUTF8 name ≠ [] → wx.text session ≠ [] →
        wx.sameNoCase (wx.fromUTF8 name) (wx.text session) = false ∧
        wx.sameNoCase (wx.text session) (wx.fromUTF8 name) = false := by
  simp only [firstLogin, decide_eq_true haccepted, Bool.not_true, Bool.false_or,
    Bool.and_eq_true, Option.all_eq_true, Bool.not_eq_true', unlikeOthers,
    List.all_eq_true] at h
  rcases h with ⟨⟨hfirst, hnul⟩, hunlike⟩
  refine ⟨hfirst, ?_, fun t session hts ht hlogged hname htext => ?_⟩
  · intro hmem
    rw [List.contains_iff_mem.mpr hmem] at hnul
    exact Bool.false_ne_true hnul.symm
  · have hentry := hunlike (t, session) (Std.ExtTreeMap.mem_toList_iff_getElem?_eq_some.mpr ht)
    simp only [decide_eq_false hts, hlogged, List.isEmpty_eq_false_iff.mpr hname,
      List.isEmpty_eq_false_iff.mpr htext, Bool.not_true, Bool.false_or, Bool.not_eq_true',
      Bool.or_eq_false_iff] at hentry
    exact hentry

-- What the condition says of a join of `c` itself.
theorem cleanJoin_self {it : Iteration} (hc : rs.Consistent) {c requestId r : UInt32}
    (h : cleanJoin it wx rs c (.joinRoomRequest c requestId r) = true)
    (haccepted : JoinAccepted rs c r) {session : SessionState}
    (hs : rs.findSession c = some session) :
    (∀ t, rs.IsMember t session.roomId → t = c) ∧ wx.text session ≠ [] ∧
      ∀ member ∈ rs.getRoomMembers it r, wx.text member ≠ [] := by
  simp only [cleanJoin, decide_eq_true haccepted, Bool.not_true, Bool.false_or, hs,
    Option.all_some, if_true, Bool.and_eq_true, List.isEmpty_iff, List.all_cons,
    List.all_eq_true, decide_eq_true_eq] at h
  refine ⟨fun t ht => ?_, h.2.1, h.2.2⟩
  by_contra hne
  have hmem := (hc.mem_map_getRoomMembers it session.roomId (some c) t).mpr
    ⟨ht, fun heq => hne (Option.some.inj heq).symm⟩
  rw [h.1] at hmem
  exact absurd hmem List.not_mem_nil

-- What it says of somebody who joins `c`.
theorem cleanJoin_other {it : Iteration} {c s requestId r : UInt32} (hsc : s ≠ c)
    (h : cleanJoin it wx rs c (.joinRoomRequest s requestId r) = true)
    (haccepted : JoinAccepted rs s r) {session : SessionState}
    (hs : rs.findSession s = some session) (hmember : rs.IsMember c r) :
    wx.text session ≠ [] := by
  simp only [cleanJoin, decide_eq_true haccepted, Bool.not_true, Bool.false_or, hs,
    Option.all_some, if_neg hsc, decide_eq_true hmember, decide_eq_true_eq] at h
  exact h

end Conditions

/-! ### The list follows the server -/

section Following

variable {wx : Wx} (hrefl : ∀ x, wx.sameNoCase x x = true) {rs : RoomSystem} {c s : UInt32}
  {users : List WxString}

-- A name without a NUL byte is shown whole.
theorem usersAfter_userJoined (users : List WxString) (r : UInt32) {session : SessionState}
    (hnul : (0 : UInt8) ∉ session.displayName) :
    usersAfter wx users (userJoinedMessage r session) = addName wx users (wx.text session) := by
  unfold usersAfter userJoinedMessage buildUserInfo createUserInfoDirect
  rw [cStr_eq_self _ hnul]
  rfl

theorem usersAfter_userLeft (users : List WxString) (r : UInt32) {session : SessionState}
    (hnul : (0 : UInt8) ∉ session.displayName) :
    usersAfter wx users (userLeftMessage r session) = removeName wx users (wx.text session) := by
  unfold usersAfter userLeftMessage buildUserInfo createUserInfoDirect
  rw [cStr_eq_self _ hnul]
  rfl

theorem usersAfter_login (users : List WxString) (requestId : UInt32) {session : SessionState}
    (hnul : (0 : UInt8) ∉ session.displayName) :
    usersAfter wx users (loginResponseMessage requestId true .none (some session))
      = addName wx users (wx.text session) := by
  unfold usersAfter loginResponseMessage
  simp only [if_true, Option.map_some, buildUserInfo, createUserInfoDirect, cStr_eq_self _ hnul]
  rfl

-- Everybody with an entry a login would show has it before and after.
theorem Listing.congr {rs' : RoomSystem} (h : Listing wx rs c users) (hw' : rs'.WellFormed)
    (hmem : ∀ t r, rs'.IsMember t r ↔ rs.IsMember t r)
    (hfind : ∀ t session, session.loggedIn = true →
      (rs'.findSession t = some session ↔ rs.findSession t = some session)) :
    Listing wx rs' c users := by
  refine ⟨h.lists.congr (fun x _ => ?_), fun r t session hcm htm ht => ?_⟩
  · unfold Shown RoomSystem.Sees
    simp only [hmem]
    constructor
    · rintro ⟨t, session, ht, hlogged, hsees, hx⟩
      exact ⟨t, session, (hfind t session hlogged).mpr ht, hlogged, hsees, hx⟩
    · rintro ⟨t, session, ht, hlogged, hsees, hx⟩
      exact ⟨t, session, (hfind t session hlogged).mp ht, hlogged, hsees, hx⟩
  · rcases hw'.session_of_isMember htm with ⟨session', ht', hroom, hne⟩
    have hlogged : session.loggedIn = true := by
      rw [ht, Option.some.injEq] at ht'
      exact hw'.loggedIn ht (ht' ▸ hroom ▸ hne)
    exact h.legible r t session ((hmem c r).mp hcm) ((hmem t r).mp htm)
      ((hfind t session hlogged).mp ht)

/-- Who is shown after a change of another session: everybody else as before,
    and that session if it is seen now. -/
theorem shown_change_other (hsc : s ≠ c) (change : Change) (x : WxString) :
    Shown wx (rs.change s change) c x ↔ ShownBut wx rs c s x ∨
      ∃ session, (rs.change s change).findSession s = some session ∧ session.loggedIn = true ∧
        (rs.change s change).Sees c s ∧ x = wx.text session :=
  (shown_iff x).trans (or_congr (shownBut_change hsc change x) Iff.rfl)

-- Only the session that changed has to be looked at again.
theorem legible_change_other (h : Listing wx rs c users) (hsc : s ≠ c) (change : Change)
    (hself : ∀ r session, rs.IsMember c r → (rs.change s change).IsMember s r →
      (rs.change s change).findSession s = some session → wx.text session ≠ [])
    (r t : UInt32) (session : SessionState) (hcm : (rs.change s change).IsMember c r)
    (htm : (rs.change s change).IsMember t r)
    (ht : (rs.change s change).findSession t = some session) : wx.text session ≠ [] := by
  rw [RoomSystem.isMember_change_other rs (fun hc => hsc hc.symm)] at hcm
  by_cases hts : t = s
  · subst hts
    exact hself r session hcm htm ht
  · rw [RoomSystem.isMember_change_other rs hts] at htm
    rw [RoomSystem.findSession_change, if_neg (fun hc => hts hc.symm)] at ht
    exact h.legible r t session hcm htm ht

include hrefl

/-- Once a departure has been processed, the session is off the list. -/
theorem lists_partings (hw : rs.WellFormed) (ho : Orderly wx rs)
    (h : Listing wx rs c users) (hsc : s ≠ c) {session : SessionState}
    (hs : rs.findSession s = some session) :
    Lists ((partings rs c session).foldl (usersAfter wx) users) (ShownBut wx rs c s) := by
  have hsees := sees_iff hw.toConsistent hsc hs
  unfold partings
  by_cases hcm : rs.IsMember c session.roomId
  · rcases hw.session_of_isMember hcm with ⟨_, _, _, hne⟩
    have hlogged := hw.loggedIn hs hne
    have htext := h.legible session.roomId s session hcm (hw.isMember_of_session hs hne) hs
    rw [if_pos hcm, List.foldl_cons, List.foldl_nil,
      usersAfter_userLeft users session.roomId (ho.nulFree s session hs)]
    -- Whoever is shown besides this name is shown for another session.
    have hbut : ∀ y, Shown wx rs c y → y ≠ wx.text session → ShownBut wx rs c s y := by
      intro y hy hne
      refine ((shown_iff y).mp hy).resolve_right ?_
      rintro ⟨session', hs', _, _, hx⟩
      rw [hs, Option.some.injEq] at hs'
      exact hne (hx.trans (by rw [hs']))
    have hremoved := lists_removeName hrefl h.lists (wx.text session) (fun y hy hshown hne =>
      ho.apart_of_shownBut hs hlogged htext hy (hbut y hshown hne))
    refine hremoved.congr (fun y hy => ⟨fun hy' => hbut y hy'.1 hy'.2, fun hy' => ⟨?_, ?_⟩⟩)
    · exact (shown_iff y).mpr (Or.inl hy')
    · intro heq
      have hsame := ho.apart_of_shownBut hs hlogged htext hy hy'
      rw [heq, hrefl] at hsame
      exact Bool.false_ne_true hsame.symm
  · rw [if_neg hcm, List.foldl_nil]
    refine h.lists.congr (fun y _ => (shown_iff y).trans ⟨fun hor => hor.resolve_right ?_, Or.inl⟩)
    rintro ⟨_, _, _, hseen, _⟩
    exact hcm (hsees.mp hseen)

/-- The members of a room are announced one after the other. -/
theorem lists_members (r : UInt32) {P : WxString → Prop} (members : List SessionState)
    (hids : (members.map SessionState.sessionId).Nodup)
    (hnul : ∀ m ∈ members, (0 : UInt8) ∉ m.displayName)
    (hfree : ∀ m ∈ members, ∀ y, y ≠ [] → P y → wx.sameNoCase y (wx.text m) = false)
    (hapart : ∀ m ∈ members, ∀ m' ∈ members, m.sessionId ≠ m'.sessionId →
      wx.sameNoCase (wx.text m) (wx.text m') = false)
    (h : Lists users P) :
    Lists ((members.map (userJoinedMessage r)).foldl (usersAfter wx) users)
      (fun x => P x ∨ ∃ m ∈ members, x = wx.text m) := by
  induction members generalizing users P with
  | nil =>
      refine h.congr (fun x _ => ⟨Or.inl, fun hor => hor.resolve_right ?_⟩)
      rintro ⟨m, hm, _⟩
      exact absurd hm List.not_mem_nil
  | cons m members ih =>
      rw [List.map_cons, List.nodup_cons] at hids
      rw [List.map_cons, List.foldl_cons,
        usersAfter_userJoined users r (hnul m List.mem_cons_self)]
      have hadded := lists_addName hrefl h (wx.text m)
        (fun _ y hy hP => hfree m List.mem_cons_self y hy hP)
      -- Those still to come differ from this one.
      have hrest := ih hids.2 (fun m' hm' => hnul m' (List.mem_cons_of_mem m hm'))
        (fun m' hm' y hy hor => ?_)
        (fun m1 h1 m2 h2 => hapart m1 (List.mem_cons_of_mem m h1) m2 (List.mem_cons_of_mem m h2))
        hadded
      · refine hrest.congr (fun x _ => ?_)
        simp only [List.mem_cons, or_assoc, exists_eq_or_imp]
      · rcases hor with hP | rfl
        · exact hfree m' (List.mem_cons_of_mem m hm') y hy hP
        · refine hapart m List.mem_cons_self m' (List.mem_cons_of_mem m hm') (fun heq => ?_)
          exact hids.1 (List.mem_map.mpr ⟨m', hm', heq.symm⟩)

omit hrefl in
-- Somebody outside any room logs in, and nobody is told.
theorem listing_otherLogin (hw : rs.WellFormed) (h : Listing wx rs c users) (hsc : s ≠ c)
    {name : Bytes}
    (hfirst : ∀ session, rs.findSession s = some session → session.loggedIn = false) :
    Listing wx (rs.change s (.login name)) c users := by
  -- Before the first login there is no room to be seen in.
  have hunseen : ¬ ∃ r, rs.IsMember c r ∧ rs.IsMember s r := by
    rintro ⟨r, _, hsm⟩
    rcases hw.session_of_isMember hsm with ⟨session, hs, hroom, hne⟩
    have hlogged := hw.loggedIn hs (hroom ▸ hne)
    rw [hfirst session hs] at hlogged
    exact Bool.false_ne_true hlogged
  refine ⟨h.lists.congr (fun x _ => ?_), ?_⟩
  · rw [shown_iff (s := s), shown_change_other hsc]
    refine or_congr Iff.rfl ⟨?_, ?_⟩
    · rintro ⟨session, hs, hlogged, _⟩
      rw [hfirst session hs] at hlogged
      exact absurd hlogged Bool.false_ne_true
    · rintro ⟨_, _, _, heq | hroom, _⟩
      · exact absurd heq hsc
      · exact absurd hroom hunseen
  · exact legible_change_other h hsc _ (fun r _ hcm hsm _ => absurd ⟨r, hcm, hsm⟩ hunseen)

-- The window's own login puts the first name on the list.
theorem listing_login (hw : rs.WellFormed) (h : Listing wx rs c users) {name : Bytes}
    {session : SessionState} (hs : rs.findSession c = some session)
    (hfirst : session.loggedIn = false) (hnul : (0 : UInt8) ∉ name) (requestId : UInt32) :
    Listing wx (rs.change c (.login name)) c
      (usersAfter wx users (loginResponseMessage requestId true .none
        (some { session with loggedIn := true, displayName := name }))) := by
  have hout : ∀ session', rs.findSession c = some session' → session'.loggedIn = false := by
    intro session' hs'
    rw [hs, Option.some.injEq] at hs'
    rw [← hs']
    exact hfirst
  have hnothing : ∀ x, ¬ Shown wx rs c x := not_shown_of_not_loggedIn hw hout
  have hnoRoom : ∀ r, ¬ rs.IsMember c r := by
    intro r hcm
    rcases hw.session_of_isMember hcm with ⟨own, hown, hroom, hne⟩
    have hlogged := hw.loggedIn hown (hroom ▸ hne)
    rw [hout own hown] at hlogged
    exact Bool.false_ne_true hlogged
  have hentry : (rs.change c (.login name)).findSession c
      = some { session with loggedIn := true, displayName := name } := by
    rw [RoomSystem.findSession_change, if_pos rfl, hs]
    rfl
  have hadds : usersAfter wx users (loginResponseMessage requestId true .none
      (some { session with loggedIn := true, displayName := name }))
        = addName wx users (wx.fromUTF8 name) := usersAfter_login users requestId hnul
  rw [hadds]
  refine ⟨?_, fun r t _ hcm _ _ => absurd hcm (hnoRoom r)⟩
  refine (lists_addName hrefl h.lists _ (fun _ y _ hy => absurd hy (hnothing y))).congr
    (fun x _ => ⟨?_, ?_⟩)
  · rintro (hx | hx)
    · exact absurd hx (hnothing x)
    · exact ⟨c, _, hentry, rfl, Or.inl rfl, hx⟩
  · rintro ⟨t, session', ht, _, heq | ⟨r, hcm, _⟩, hx⟩
    · rw [heq, hentry, Option.some.injEq] at ht
      rw [← ht] at hx
      exact Or.inr hx
    · exact absurd hcm (hnoRoom r)

-- The window enters a room and leaves nobody behind.
theorem listing_join (hw : rs.WellFormed) (ho : Orderly wx rs) (h : Listing wx rs c users)
    (it : Iteration) {r : UInt32} {session : SessionState} {room : RoomState}
    (hs : rs.findSession c = some session) (hlogged : session.loggedIn = true)
    (hr : rs.findRoom r = some room) (hne : session.roomId ≠ r)
    (halone : ∀ t, rs.IsMember t session.roomId → t = c) (htext : wx.text session ≠ [])
    (hmembers : ∀ member ∈ rs.getRoomMembers it r, wx.text member ≠ []) :
    Listing wx (rs.change c (.place r)) c
      (((rs.getRoomMembers it r).map (userJoinedMessage r)).foldl (usersAfter wx) users) := by
  have hmem : ∀ t q, (rs.change c (.place r)).IsMember t q ↔
      if t = c then q = r ∧ ∃ room, rs.findRoom q = some room else rs.IsMember t q :=
    fun t q => RoomSystem.isMember_assign rs c r t q
  have hfind : ∀ t, (rs.change c (.place r)).findSession t = if c = t then
      (rs.findSession t).map (fun session => { session with roomId := r })
        else rs.findSession t := fun t => RoomSystem.findSession_assign rs c r t
  have hnot : ∀ t, rs.IsMember t r → t ≠ c := by
    rintro t htm rfl
    exact hw.not_isMember hs hne htm
  -- Before the join the list has the window's own name alone.
  have hown : Lists users (fun x => x = wx.text session) := by
    refine h.lists.congr (fun x _ => ⟨?_, fun hx => ⟨c, session, hs, hlogged, Or.inl rfl, hx⟩⟩)
    rintro ⟨t, session', ht, _, hsees, hx⟩
    have htc : t = c := by
      rcases hsees with heq | ⟨q, hcm, htm⟩
      · exact heq
      · rcases hw.session_of_isMember hcm with ⟨session'', hs'', hroom, _⟩
        rw [hs, Option.some.injEq] at hs''
        rw [← hroom, ← hs''] at htm
        exact halone t htm
    rw [htc, hs, Option.some.injEq] at ht
    rw [hx, ht]
  -- A member is another session with an entry of its own.
  have hfound : ∀ m ∈ rs.getRoomMembers it r, rs.findSession m.sessionId = some m ∧
      m.loggedIn = true ∧ m.sessionId ≠ c := by
    intro m hm
    have hf := hw.findSession_of_mem hm
    rcases hw.session_of_isMember hf.2.2.1 with ⟨m', hm', hroom, hneRoom⟩
    rw [hf.1, Option.some.injEq] at hm'
    exact ⟨hf.1, hw.loggedIn hf.1 (hm' ▸ hroom ▸ hneRoom), hnot _ hf.2.2.1⟩
  have hlists := lists_members hrefl r (rs.getRoomMembers it r)
    (hw.nodup_getRoomMembers it r none)
    (fun m hm => ho.nulFree _ m (hfound m hm).1)
    (fun m hm y hy hP => by
      rw [hP]
      exact ho.apart c _ session m (fun hc => (hfound m hm).2.2 hc.symm) hs (hfound m hm).1
        hlogged (hfound m hm).2.1 htext (hmembers m hm))
    (fun m hm m' hm' hid => ho.apart _ _ m m' hid (hfound m hm).1 (hfound m' hm').1
      (hfound m hm).2.1 (hfound m' hm').2.1 (hmembers m hm) (hmembers m' hm'))
    hown
  have hentry : (rs.change c (.place r)).findSession c = some { session with roomId := r } := by
    rw [hfind, if_pos rfl, hs]
    rfl
  refine ⟨hlists.congr (fun x _ => ⟨?_, ?_⟩), fun q t session' hcm htm ht => ?_⟩
  · rintro (hx | ⟨m, hm, hx⟩)
    · exact ⟨c, _, hentry, hlogged, Or.inl rfl, hx⟩
    · have hmember := (hw.findSession_of_mem hm).2.2.1
      refine ⟨m.sessionId, m, ?_, (hfound m hm).2.1, Or.inr ⟨r, ?_, ?_⟩, hx⟩
      · rw [hfind, if_neg (fun hc => (hfound m hm).2.2 hc.symm)]
        exact (hfound m hm).1
      · rw [hmem, if_pos rfl]
        exact ⟨rfl, room, hr⟩
      · rw [hmem, if_neg (hfound m hm).2.2]
        exact hmember
  · rintro ⟨t, session', ht, _, hsees, hx⟩
    by_cases htc : t = c
    · rw [htc, hentry, Option.some.injEq] at ht
      rw [← ht] at hx
      exact Or.inl hx
    · rcases hsees with heq | ⟨q, hcm, htm⟩
      · exact absurd heq htc
      · rw [hmem, if_pos rfl] at hcm
        rw [hmem, if_neg htc, hcm.1] at htm
        rw [hfind, if_neg (fun hc => htc hc.symm)] at ht
        exact Or.inr ⟨session', mem_getRoomMembers_of_isMember hw.toConsistent it none
          (Option.some_ne_none t).symm ht htm, hx⟩
  · rw [hmem, if_pos rfl] at hcm
    by_cases htc : t = c
    · rw [htc, hentry, Option.some.injEq] at ht
      rw [← ht]
      exact htext
    · rw [hmem, if_neg htc, hcm.1] at htm
      rw [hfind, if_neg (fun hc => htc hc.symm)] at ht
      exact hmembers session' (mem_getRoomMembers_of_isMember hw.toConsistent it none
        (Option.some_ne_none t).symm ht htm)

-- Somebody enters a room, from another one or from none.
theorem listing_enters (hw : rs.WellFormed) (ho : Orderly wx rs) (h : Listing wx rs c users)
    (hsc : s ≠ c) {q : UInt32} (hw' : (rs.change s (.place q)).WellFormed)
    {session : SessionState} (hs : rs.findSession s = some session)
    (hlogged : session.loggedIn = true) (htext : rs.IsMember c q → wx.text session ≠ []) :
    Listing wx (rs.change s (.place q)) c
      ((partings rs c session ++ arrivals rs c q session).foldl (usersAfter wx) users) := by
  have hentry : (rs.change s (.place q)).findSession s = some { session with roomId := q } := by
    rw [RoomSystem.findSession_change, if_pos rfl, hs]
    rfl
  have hsees := sees_iff hw'.toConsistent hsc hentry
  rw [RoomSystem.isMember_change_other rs (fun hc => hsc hc.symm)] at hsees
  have hleft := lists_partings hrefl hw ho h hsc hs
  refine ⟨?_, legible_change_other h hsc _ (fun r session' hcm hsm hs' => ?_)⟩
  · rw [List.foldl_append]
    unfold arrivals
    by_cases hcm : rs.IsMember c q
    · have hnul : (0 : UInt8) ∉ ({ session with roomId := q } : SessionState).displayName :=
        ho.nulFree s session hs
      rw [if_pos hcm, List.foldl_cons, List.foldl_nil, usersAfter_userJoined _ q hnul]
      have hadded := lists_addName hrefl hleft (wx.text session)
        (fun hne y hy hshown => ho.apart_of_shownBut hs hlogged hne hy hshown)
      refine hadded.congr (fun x _ => ?_)
      rw [shown_change_other hsc]
      refine or_congr Iff.rfl ⟨fun hx => ⟨_, hentry, hlogged, hsees.mpr hcm, hx⟩, ?_⟩
      rintro ⟨session', hs', _, _, hx⟩
      rw [hentry, Option.some.injEq] at hs'
      rw [← hs'] at hx
      exact hx
    · rw [if_neg hcm, List.foldl_nil]
      refine hleft.congr (fun x _ => ?_)
      rw [shown_change_other hsc]
      refine ⟨Or.inl, fun hor => hor.resolve_right ?_⟩
      rintro ⟨_, _, _, hseen, _⟩
      exact hcm (hsees.mp hseen)
  · -- Seen where it went to.
    rcases hw'.session_of_isMember hsm with ⟨session'', hs'', hroom, _⟩
    rw [hentry, Option.some.injEq] at hs' hs''
    have hqr : q = r := by
      rw [← hs''] at hroom
      exact hroom
    rw [← hs']
    exact htext (hqr ▸ hcm)

-- Somebody leaves for good or for no room.
theorem listing_leaves (hw : rs.WellFormed) (ho : Orderly wx rs) (h : Listing wx rs c users)
    (hsc : s ≠ c) {change : Change} (hw' : (rs.change s change).WellFormed)
    {session : SessionState} (hs : rs.findSession s = some session)
    (hchange : change = .place noRoomId ∨ change = .remove) :
    Listing wx (rs.change s change) c
      ((partings rs c session).foldl (usersAfter wx) users) := by
  -- Wherever it is now, it is in no room.
  have hnoRoom : ∀ r, ¬ (rs.change s change).IsMember s r := by
    intro r hsm
    rcases hw'.session_of_isMember hsm with ⟨session', hs', hroom, hne⟩
    rw [RoomSystem.findSession_change, if_pos rfl, hs] at hs'
    rcases hchange with rfl | rfl
    · rw [Change.entry, Option.map_some, Option.some.injEq] at hs'
      rw [← hs'] at hroom
      exact hne hroom.symm
    · cases hs'
  have hunseen : ¬ (rs.change s change).Sees c s := by
    rintro (heq | ⟨r, _, hsm⟩)
    · exact hsc heq
    · exact hnoRoom r hsm
  refine ⟨?_, legible_change_other h hsc _ (fun r _ _ hsm _ => absurd hsm (hnoRoom r))⟩
  refine (lists_partings hrefl hw ho h hsc hs).congr (fun x _ => ?_)
  rw [shown_change_other hsc]
  refine ⟨Or.inl, fun hor => hor.resolve_right ?_⟩
  rintro ⟨_, _, _, hseen, _⟩
  exact hunseen hseen

/-- A list that is right stays right over an event, as long as the session of
    the window does not end. -/
theorem Heard.listing {env : Env} (hw : rs.WellFormed) (ho : Orderly wx rs)
    {event : ServerEvent} {change : Change} {ms : List Message}
    (hw' : (rs.change event.sessionId change).WellFormed)
    (hheard : Heard env rs c event change ms) (hended : event ≠ .sessionDisconnected c)
    (hlogin : firstLogin wx rs event = true)
    (hjoin : cleanJoin env.toIteration wx rs c event = true) (h : Listing wx rs c users) :
    Listing wx (rs.change event.sessionId change) c (ms.foldl (usersAfter wx) users) := by
  cases hheard with
  | silent event change ms hms hchange =>
      rw [foldl_of_idle (fun m hm users => usersAfter_of_isSilent wx (hms m hm) users)]
      rcases hchange with rfl | ⟨_, rfl⟩ | ⟨rfl, hnone⟩
      · exact h
      · -- A session that has just connected is not logged in.
        refine h.congr hw' (fun _ _ => Iff.rfl) (fun t session hlogged => ?_)
        rw [RoomSystem.findSession_change]
        by_cases hst : event.sessionId = t
        · rw [if_pos hst, ← hst]
          cases hs : rs.findSession event.sessionId with
          | none =>
              refine ⟨fun hnew => ?_, fun hc => by cases hc⟩
              rw [Change.entry, Option.getD_none, Option.some.injEq] at hnew
              rw [← hnew] at hlogged
              exact absurd hlogged Bool.false_ne_true
          | some old => exact Iff.rfl
        · rw [if_neg hst]
      · rw [RoomSystem.change, RoomSystem.forget_eq_self hw.toConsistent hnone]
        exact h
  | otherLogin s requestId name hsc haccepted =>
      exact listing_otherLogin hw h hsc (firstLogin_spec hlogin haccepted).1
  | login requestId name session hs haccepted =>
      have hspec := firstLogin_spec hlogin haccepted
      exact listing_login hrefl hw h hs (hspec.1 session hs) hspec.2.1 requestId
  | join requestId r session room hs hlogged hr hne =>
      have hspec := cleanJoin_self hw.toConsistent hjoin ⟨session, room, hs, hlogged, hr, hne⟩ hs
      exact listing_join hrefl hw ho h env.toIteration hs hlogged hr hne hspec.1 hspec.2.1
        hspec.2.2
  | enters s requestId q session room hsc hs hlogged hq hne =>
      exact listing_enters hrefl hw ho h hsc hw' hs hlogged
        (cleanJoin_other hsc hjoin ⟨session, room, hs, hlogged, hq, hne⟩ hs)
  | leaves event change session hsc hs hchange =>
      exact listing_leaves hrefl hw ho h hsc hw' hs hchange
  | ended => exact absurd rfl hended

end Following

/-! ### Names stay apart -/

-- Entries that keep their names, and new ones without a login.
theorem Orderly.of_entries {wx : Wx} {rs rs' : RoomSystem} (h : Orderly wx rs)
    (hentries : ∀ t session', rs'.findSession t = some session' →
      (∃ session, rs.findSession t = some session ∧
        session'.displayName = session.displayName ∧ session'.loggedIn = session.loggedIn) ∨
      (session'.displayName = [] ∧ session'.loggedIn = false)) : Orderly wx rs' where
  nulFree t session' ht' := by
    rcases hentries t session' ht' with ⟨session, ht, hname, _⟩ | ⟨hname, _⟩
    · rw [hname]
      exact h.nulFree t session ht
    · rw [hname]
      exact List.not_mem_nil
  apart t u session' other' htu ht' hu' htlogged hulogged httext hutext := by
    rcases hentries t session' ht' with ⟨session, ht, hname, hin⟩ | ⟨_, hout⟩
    · rcases hentries u other' hu' with ⟨other, hu, huname, huin⟩ | ⟨_, hout⟩
      · unfold Wx.text at *
        rw [hname] at httext ⊢
        rw [huname] at hutext ⊢
        exact h.apart t u session other htu ht hu (hin ▸ htlogged) (huin ▸ hulogged) httext
          hutext
      · exact absurd (hout.symm.trans hulogged) Bool.false_ne_true
    · exact absurd (hout.symm.trans htlogged) Bool.false_ne_true

/-- Names stay apart over an event whose login, if it is one, is the first of
    its session under a name of its own. -/
theorem orderly_effect {wx : Wx} {rs : RoomSystem} (env : Env) (reads : Nat)
    (h : Orderly wx rs) {event : ServerEvent} (hlogin : firstLogin wx rs event = true) :
    Orderly wx (rs.change event.sessionId (effect env reads rs event).change) := by
  -- A change that touches no name.
  have hkeeps : ∀ change : Change, (∀ name, change ≠ .login name) →
      Orderly wx (rs.change event.sessionId change) := by
    intro change hchange
    refine h.of_entries (fun t session' ht' => ?_)
    rw [RoomSystem.findSession_change] at ht'
    by_cases hst : event.sessionId = t
    · rw [if_pos hst] at ht'
      cases change with
      | keep => exact Or.inl ⟨session', ht', rfl, rfl⟩
      | add =>
          rw [Change.entry, Option.some.injEq] at ht'
          cases hold : rs.findSession t with
          | none =>
              rw [hold, Option.getD_none] at ht'
              rw [← ht']
              exact Or.inr ⟨rfl, rfl⟩
          | some session =>
              rw [hold, Option.getD_some] at ht'
              rw [ht']
              exact Or.inl ⟨session', rfl, rfl, rfl⟩
      | login name => exact absurd rfl (hchange name)
      | place r =>
          rcases Option.map_eq_some_iff.mp ht' with ⟨session, hs, rfl⟩
          exact Or.inl ⟨session, hs, rfl, rfl⟩
      | remove => cases ht'
    · rw [if_neg hst] at ht'
      exact Or.inl ⟨session', ht', rfl, rfl⟩
  rcases effect_change_cases env reads rs event with he | ⟨_, _, he⟩ |
    ⟨s, requestId, name, rfl, haccepted, he⟩ | ⟨_, _, _, _, _, he⟩ | ⟨_, _, _, _, he⟩ | ⟨_, he⟩
  · rw [he]
    exact hkeeps _ (fun _ hc => Change.noConfusion hc)
  · rw [he]
    exact hkeeps _ (fun _ hc => Change.noConfusion hc)
  · rw [he]
    rcases firstLogin_spec hlogin haccepted with ⟨_, hnul, hunlike⟩
    have hfind : ∀ t session', (rs.change s (.login name)).findSession t = some session' →
        t = s ∧ session'.displayName = name ∨ t ≠ s ∧ rs.findSession t = some session' := by
      intro t session' ht'
      rw [RoomSystem.findSession_change] at ht'
      by_cases hst : s = t
      · rw [if_pos hst] at ht'
        rcases Option.map_eq_some_iff.mp ht' with ⟨_, _, rfl⟩
        exact Or.inl ⟨hst.symm, rfl⟩
      · rw [if_neg hst] at ht'
        exact Or.inr ⟨fun hc => hst hc.symm, ht'⟩
    refine ⟨fun t session' ht' => ?_,
      fun t u session' other' htu ht' hu' htlogged hulogged httext hutext => ?_⟩
    · rcases hfind t session' ht' with ⟨_, hname⟩ | ⟨_, ht⟩
      · rw [hname]
        exact hnul
      · exact h.nulFree t session' ht
    · rcases hfind t session' ht' with ⟨hts, hname⟩ | ⟨hts, ht⟩
      · rcases hfind u other' hu' with ⟨hus, _⟩ | ⟨hus, hu⟩
        · exact absurd (hts.trans hus.symm) htu
        · unfold Wx.text at httext
          rw [hname] at httext
          rw [Wx.text, hname]
          exact (hunlike u other' hus hu hulogged httext hutext).1
      · rcases hfind u other' hu' with ⟨_, huname⟩ | ⟨_, hu⟩
        · unfold Wx.text at hutext
          rw [huname] at hutext
          have hapart := (hunlike t session' hts ht htlogged hutext httext).2
          rw [← huname] at hapart
          exact hapart
        · exact h.apart t u session' other' htu ht hu htlogged hulogged httext hutext
  · rw [he]
    exact hkeeps _ (fun _ hc => Change.noConfusion hc)
  · rw [he]
    exact hkeeps _ (fun _ hc => Change.noConfusion hc)
  · rw [he]
    exact hkeeps _ (fun _ hc => Change.noConfusion hc)

-- A confirmed login carries the name, which is not empty.
theorem Heard.named {wx : Wx} {env : Env} {rs : RoomSystem} {c : UInt32} {event : ServerEvent}
    {change : Change} {ms : List Message} (h : Heard env rs c event change ms)
    (hlogin : firstLogin wx rs event = true) : ∀ m ∈ ms, m.IsNamed := by
  intro m hm
  cases h with
  | silent event change ms hms _ =>
      exact Message.isNamed_of_isSilent (hms m hm)
  | otherLogin s requestId name hsc haccepted => exact absurd hm List.not_mem_nil
  | login requestId name session hs haccepted =>
      have hnul := (firstLogin_spec hlogin haccepted).2.1
      have hname : cStr name ≠ [] := by
        rw [cStr_eq_self name hnul]
        exact haccepted.2.1
      rw [List.mem_singleton.mp hm]
      exact ⟨_, rfl, hname⟩
  | join requestId r session room hs hlogged hr hne =>
      rcases List.mem_cons.mp hm with rfl | hm
      · trivial
      rcases List.mem_cons.mp hm with rfl | hm
      · trivial
      rcases List.mem_map.mp hm with ⟨other, _, rfl⟩
      trivial
  | enters s requestId q session room hsc hs hlogged hq hne =>
      rcases List.mem_append.mp hm with hm | hm
      · rcases mem_partings hm with ⟨_, rfl⟩
        trivial
      · rcases mem_arrivals hm with ⟨_, rfl⟩
        trivial
  | leaves event change session hsc hs _ =>
      rcases mem_partings hm with ⟨_, rfl⟩
      trivial
  | ended => exact absurd hm List.not_mem_nil

end ProjectNight

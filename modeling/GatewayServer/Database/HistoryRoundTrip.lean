import GatewayServer.Database.FailedQueries
import Mathlib.Algebra.Group.Nat.Defs

/-!
# From a message to the history and back

A message is stored with the id of its author and the text of its date. It is read with the author
that `clients` has under the id, and a date that `std::get_time` makes of the text. For authors
who are clients and for days of the calendar, nothing is lost on the way.

## Main definitions

* `DateTime.Valid` — a second of the years 1 to 9999
* `Database.messagesOf` — the messages of a channel name as they are read
* `WrapperPg.addMessages` — some calls of `addMsgHistory`

## Main results

* `getTime_timestampText` — a valid date is read as it was printed
* `messagesOf_store` — what one stored message adds to the messages of a channel
* `run_addMsgHistory_fails` — when a message is stored, with queries that may fail
* `run_getHistory_addMessages` — the messages added are those that are read
-/

namespace GatewayServer

open Lib

/-! ## Dates -/

namespace DateTime

/-- The days of a month of the Gregorian calendar. -/
def daysIn (year month : ℕ) : ℕ :=
  if month = 2 then
    if year % 4 = 0 ∧ (year % 100 ≠ 0 ∨ year % 400 = 0) then 29 else 28
  else if month = 4 ∨ month = 6 ∨ month = 9 ∨ month = 11 then 30
  else 31

/-- A second of a day of the years 1 to 9999. -/
structure Valid (d : DateTime) : Prop where
  year : 1 ≤ d.date.year ∧ d.date.year ≤ 9999
  month : 1 ≤ d.date.month ∧ d.date.month ≤ 12
  day : 1 ≤ d.date.day ∧ d.date.day ≤ daysIn d.date.year d.date.month
  hours : d.time.hours ≤ 23
  minutes : d.time.minutes ≤ 59
  seconds : d.time.seconds ≤ 59

theorem daysIn_le (year month : ℕ) : daysIn year month ≤ 31 := by
  unfold daysIn
  split_ifs <;> omega

end DateTime

/-- Digits are read up to the width of the field. -/
theorem readDigits_append (digits rest : List Char) (hdigits : ∀ c ∈ digits, c.isDigit)
    (value : ℕ) :
    readDigits digits.length value (digits ++ rest) = (Nat.ofDigitChars 10 digits value, rest) := by
  induction digits generalizing value with
  | nil => simp [readDigits]
  | cons c digits ih =>
    have hc : c.isDigit = true := hdigits c List.mem_cons_self
    rw [List.cons_append, List.length_cons, readDigits, if_pos hc,
      ih fun c' hc' => hdigits c' (List.mem_cons_of_mem c hc'), Nat.ofDigitChars_cons]

section Padded

variable {width n : ℕ}

theorem toList_padded : (padded width n).toList =
    List.replicate (width - (Nat.toDigits 10 n).length) '0' ++ Nat.toDigits 10 n := by
  rw [padded, Nat.toString_eq_ofList_toDigits, String.toList_append, String.toList_ofList,
    String.toList_ofList, String.length_ofList]

theorem length_padded (hwidth : 0 < width) (hn : n < 10 ^ width) :
    (padded width n).toList.length = width := by
  have hdigits := (Nat.length_toDigits_le_iff (by decide) hwidth).mpr hn
  rw [toList_padded, List.length_append, List.length_replicate]
  omega

theorem isDigit_of_mem_padded {c : Char} (hc : c ∈ (padded width n).toList) :
    c.isDigit = true := by
  rw [toList_padded] at hc
  rcases List.mem_append.mp hc with hzero | hdigit
  · rw [List.eq_of_mem_replicate hzero]
    rfl
  · exact Nat.isDigit_of_mem_toDigits (by decide) (by decide) hdigit

theorem ofDigitChars_padded : Nat.ofDigitChars 10 (padded width n).toList 0 = n := by
  rw [toList_padded, Nat.ofDigitChars_append, Nat.ofDigitChars_replicate_zero, Nat.mul_zero,
    Nat.ofDigitChars_ten_toDigits]

/-- A number of the width of a field, in its range, is read as it was printed. -/
theorem readField_padded (hwidth : 0 < width) (hn : n < 10 ^ width) {low high : ℕ}
    (hlow : low ≤ n) (hhigh : n ≤ high) (rest : List Char) :
    readField width low high ((padded width n).toList ++ rest) = some (n, rest) := by
  have hlength := length_padded hwidth hn
  have hread := readDigits_append (padded width n).toList rest
    (fun c hc => isDigit_of_mem_padded hc) 0
  rw [hlength, ofDigitChars_padded] at hread
  cases hlist : (padded width n).toList with
  | nil =>
    rw [hlist] at hlength
    exact absurd hlength.symm (Nat.ne_of_gt hwidth)
  | cons c digits =>
    have hc : c.isDigit = true := isDigit_of_mem_padded (hlist ▸ List.mem_cons_self)
    rw [hlist, List.cons_append] at hread
    rw [List.cons_append, readField, if_pos hc, hread]
    exact if_pos ⟨hlow, hhigh⟩

end Padded

/-- A member of the `std::tm` is read as it was printed. -/
theorem readTime_field {width n low high : ℕ} (hwidth : 0 < width) (hn : n < 10 ^ width)
    (hlow : low ≤ n) (hhigh : n ≤ high) (set : DateTime → ℕ → DateTime)
    (format : List TimeFormat) (tm : DateTime) (rest : List Char) :
    readTime (.field width low high set :: format) tm ((padded width n).toList ++ rest) =
      readTime format (set tm n) rest := by
  rw [readTime, readField_padded hwidth hn hlow hhigh]

theorem readTime_char (c : Char) (format : List TimeFormat) (tm : DateTime) (rest : List Char) :
    readTime (.char c :: format) tm (c :: rest) = readTime format tm rest := by
  rw [readTime, readChar, if_pos rfl]

/-- A valid date is read as it was printed, whatever was there before. -/
theorem getTime_timestampText {d : DateTime} (h : d.Valid) (tm : DateTime) :
    getTime (timestampText d) tm = d := by
  obtain ⟨⟨seconds, minutes, hours⟩, ⟨day, month, year⟩⟩ := d
  obtain ⟨⟨-, hyear⟩, ⟨hmonth, hmonth'⟩, ⟨hday, hday'⟩, hhours, hminutes, hseconds⟩ := h
  have hday' := Nat.le_trans hday' (DateTime.daysIn_le _ _)
  dsimp only at hyear hmonth hmonth' hday hday' hhours hminutes hseconds
  -- the text, with the separators as characters in front of what follows them
  have htext : (timestampText ⟨⟨seconds, minutes, hours⟩, ⟨day, month, year⟩⟩).toList =
      (padded 4 year).toList ++ '-' :: ((padded 2 month).toList ++ '-' ::
        ((padded 2 day).toList ++ ' ' :: ((padded 2 hours).toList ++ ':' ::
          ((padded 2 minutes).toList ++ ':' :: ((padded 2 seconds).toList ++ []))))) := by
    simp [timestampText]
  rw [getTime, htext, timestampFormat,
    readTime_field (by decide) (by omega) (Nat.zero_le _) hyear, readTime_char,
    readTime_field (by decide) (by omega) hmonth hmonth', readTime_char,
    readTime_field (by decide) (by omega) hday hday', readTime_char,
    readTime_field (by decide) (by omega) (Nat.zero_le _) hhours, readTime_char,
    readTime_field (by decide) (by omega) (Nat.zero_le _) hminutes, readTime_char,
    readTime_field (by decide) (by omega) (Nat.zero_le _) (by omega)]
  rfl

/-! ## Messages -/

section Messages

variable [Protocol]

/-- A message with its date as the history gives it back. -/
def WrapperPg.reread (m : ClientTextMsg) : ClientTextMsg :=
  { m with dt := getTime (timestampText m.dt) Protocol.uninitializedTm }

theorem WrapperPg.reread_of_valid {m : ClientTextMsg} (h : m.dt.Valid) : reread m = m := by
  rw [reread, getTime_timestampText h]

namespace Database

/-- The messages stored under a channel name, as they are read. -/
def messagesOf (db : Database) (n : String) : List ClientTextMsg :=
  (db.history.filter fun row => row.channelName = n).map fun row =>
    WrapperPg.rowMessage n row (db.loginOf row.clientId)

omit [Protocol] in
/-- The tables after a message was stored, or refused for want of an author. -/
def store (db : Database) (m : ClientTextMsg) : Database :=
  (db.insertHistory ⟨db.clientId m.author, m.channelName, timestampText m.dt, m.text⟩).getD db

omit [Protocol] in
/-- A message without an author is refused. -/
theorem store_of_unknown (db : Database) {m : ClientTextMsg} (hauthor : db.clientId m.author = 0) :
    db.store m = db := by
  rw [store, insertHistory_zero db hauthor, Option.getD_none]

omit [Protocol] in
theorem store_clients (db : Database) (m : ClientTextMsg) : (db.store m).clients = db.clients :=
  (db.insertHistory_frame _).1

omit [Protocol] in
theorem store_channels (db : Database) (m : ClientTextMsg) :
    (db.store m).channels = db.channels :=
  (db.insertHistory_frame _).2.1

omit [Protocol] in
theorem store_subscriptions (db : Database) (m : ClientTextMsg) :
    (db.store m).subscriptions = db.subscriptions :=
  (db.insertHistory_frame _).2.2

omit [Protocol] in
theorem store_history (db : Database) (m : ClientTextMsg) :
    (db.store m).history = db.history ++
      if db.clientId m.author = 0 then []
      else [⟨db.clientId m.author, m.channelName, timestampText m.dt, m.text⟩] := by
  rw [store, db.history_insertHistory_clientId m.author rfl]
  split <;> simp

theorem messagesOf_congr {db db' : Database} (hhistory : db'.history = db.history)
    (hclients : db'.clients = db.clients) (n : String) : db'.messagesOf n = db.messagesOf n := by
  simp only [messagesOf, loginOf, hhistory, hclients]

/-- A message of a client is added to the messages of its channel. -/
theorem messagesOf_store (db : Database) (m : ClientTextMsg) (n : String) :
    (db.store m).messagesOf n = db.messagesOf n ++
      if db.clientId m.author ≠ 0 ∧ m.channelName = n then [WrapperPg.reread m] else [] := by
  have hlogin : (db.store m).loginOf = db.loginOf := by
    funext i
    simp only [loginOf, store_clients]
  rw [messagesOf, hlogin, store_history, List.filter_append, List.map_append]
  by_cases hauthor : db.clientId m.author = 0
  · simp [hauthor, messagesOf]
  · by_cases hn : m.channelName = n
    · subst hn
      -- the author is looked up by the id that was found for it
      have hrow : WrapperPg.rowMessage m.channelName ⟨db.clientId m.author, m.channelName,
          timestampText m.dt, m.text⟩ (db.loginOf (db.clientId m.author)) =
          WrapperPg.reread m := by
        rw [loginOf_clientId hauthor]
        rfl
      simp [hauthor, hrow, messagesOf]
    · simp [hauthor, hn, messagesOf]

end Database

namespace WrapperPg

omit [Protocol] in
/-- A message is stored when its author is found and the `INSERT` does not fail. -/
theorem run_addMsgHistory_fails (s : Postgres) (k : UserId) (m : ClientTextMsg) :
    (connected.addMsgHistory k m).run s =
      (.ok ⟨⟩, s.after 2 (if s.fails 0 ∨ s.fails 1 then s.db else s.db.store m)) := by
  rw [addMsgHistory, Prog.run_bind_ok (run_getClientId_fails s _)]
  cases hlookup : s.fails 0 with
  | true =>
    -- the row is for the client zero, and refused
    obtain ⟨r, hrun⟩ := run_insert_refusable (s.after 1 s.db) (QueryText.addMsgHistory 0 m)
      fun db => db.insertHistory ⟨0, m.channelName, timestampText m.dt, m.text⟩
    rw [Postgres.after_db, Database.insertHistory_zero _ rfl, Option.getD_none, ite_self,
      Postgres.after_after] at hrun
    rw [if_pos rfl, Prog.run_bind_ok hrun, if_pos (Or.inl rfl)]
    rfl
  | false =>
    obtain ⟨r, hrun⟩ := run_insert_refusable (s.after 1 s.db)
      (QueryText.addMsgHistory (s.db.clientId m.author) m)
      fun db =>
        db.insertHistory ⟨s.db.clientId m.author, m.channelName, timestampText m.dt, m.text⟩
    rw [Postgres.after_db, Postgres.fails_after, Postgres.after_after] at hrun
    rw [if_neg Bool.false_ne_true, Prog.run_bind_ok hrun]
    cases s.fails 1 <;> simp [Database.store]

/-- Calls of `addMsgHistory`, each with a channel id and a message. -/
def addMessages (s : Postgres) (calls : List (UserId × ClientTextMsg)) : Postgres :=
  calls.foldl (fun s call => ((connected.addMsgHistory call.1 call.2).run s).2) s

variable {s : Postgres} (faults : s.faults = [])
include faults

omit [Protocol] in
theorem addMessages_cons (k : UserId) (m : ClientTextMsg) (calls : List (UserId × ClientTextMsg)) :
    addMessages s ((k, m) :: calls) = addMessages { s with db := s.db.store m } calls := by
  rw [addMessages, List.foldl_cons, run_addMsgHistory faults]
  rfl

/-- Authors who are clients and valid dates: the messages of a name grow by those added. -/
theorem addMessages_spec {calls : List (UserId × ClientTextMsg)}
    (hauthors : ∀ call ∈ calls, s.db.clientId call.2.author ≠ 0)
    (hdates : ∀ call ∈ calls, call.2.dt.Valid) :
    (addMessages s calls).faults = [] ∧ (addMessages s calls).db.channels = s.db.channels ∧
      ∀ n, (addMessages s calls).db.messagesOf n = s.db.messagesOf n ++
        (calls.map Prod.snd).filter fun m => m.channelName = n := by
  induction calls generalizing s with
  | nil => exact ⟨faults, rfl, by simp [addMessages]⟩
  | cons call calls ih =>
    obtain ⟨k, m⟩ := call
    have hauthor : s.db.clientId m.author ≠ 0 := hauthors _ List.mem_cons_self
    have hdate : m.dt.Valid := hdates _ List.mem_cons_self
    -- storing changes no id, so the authors of the rest are still clients
    have hids : ∀ login, (s.db.store m).clientId login = s.db.clientId login := by
      intro login
      simp only [Database.clientId, Database.store_clients]
    obtain ⟨hfaults, hchannels, hmessages⟩ :=
      ih (s := { s with db := s.db.store m }) faults
        (fun call hcall => by
          rw [hids]
          exact hauthors call (List.mem_cons_of_mem _ hcall))
        (fun call hcall => hdates call (List.mem_cons_of_mem _ hcall))
    rw [addMessages_cons faults]
    refine ⟨hfaults, hchannels.trans (s.db.store_channels m), ?_⟩
    intro n
    rw [hmessages, s.db.messagesOf_store, reread_of_valid hdate, List.append_assoc,
      List.map_cons, List.filter_cons]
    by_cases hn : m.channelName = n <;> simp [hauthor, hn]

/-- What is read of a channel after some messages were added is what was read before and the
messages with its name, in the order in which they were added. -/
theorem run_getHistory_addMessages {calls : List (UserId × ClientTextMsg)}
    (hauthors : ∀ call ∈ calls, s.db.clientId call.2.author ≠ 0)
    (hdates : ∀ call ∈ calls, call.2.dt.Valid) {k : UserId} {n : String}
    (hk : ⟨k, n⟩ ∈ s.db.channels.rows) :
    ∃ before, (connected.getHistory k).run s = (.ok before, s) ∧
      (s.db.history = [] → before = []) ∧
      (connected.getHistory k).run (addMessages s calls) =
        (.ok (before ++ (calls.map Prod.snd).filter fun m => m.channelName = n),
          addMessages s calls) := by
  obtain ⟨hfaults, hchannels, hmessages⟩ := addMessages_spec faults hauthors hdates
  -- messages do not rename the channel
  have hname : s.db.channelNameOf k = n := by
    rw [Database.channelNameOf, SerialTable.lookup_eq_some_iff.mpr hk, Option.getD_some]
  have hname' : (addMessages s calls).db.channelNameOf k = n := by
    rw [Database.channelNameOf, hchannels]
    exact hname
  refine ⟨s.db.messagesOf n, ?_, ?_, ?_⟩
  · rw [run_getHistory faults, storedMessages, hname]
    rfl
  · intro hempty
    rw [Database.messagesOf, hempty]
    rfl
  · rw [run_getHistory hfaults, storedMessages, hname', ← hmessages]
    rfl

/-! ### Two channels -/

omit [Protocol] faults

/-- A client and two channels. -/
def annWithRooms : Postgres where
  db := ((Database.empty.insertClient ⟨"ann", "a"⟩).insertChannel "room").insertChannel "hall"

/-- Noon of a leap day. -/
def leapDay : DateTime := ⟨⟨0, 0, 12⟩, ⟨29, 2, 2020⟩⟩

theorem valid_leapDay : leapDay.Valid :=
  ⟨by decide, by decide, by decide, by decide, by decide, by decide⟩

/-- A message to a channel on that day. -/
def onLeapDay (channelName text : String) : ClientTextMsg := ⟨"ann", text, channelName, leapDay⟩

theorem run_getHistory_addMessages_two_rooms :
    letI := Protocol.oneByte
    ((connected.getHistory 1).run (addMessages annWithRooms
      [(1, onLeapDay "room" "one"), (2, onLeapDay "hall" "two"),
        (1, onLeapDay "room" "three")])).1 =
        .ok [onLeapDay "room" "one", onLeapDay "room" "three"] := by
  let _ := Protocol.oneByte
  have hroom : ⟨1, "room"⟩ ∈ annWithRooms.db.channels.rows :=
    SerialTable.lookup_eq_some_iff.mp (by decide)
  have hauthors : ∀ call ∈ [((1 : UserId), onLeapDay "room" "one"),
      (2, onLeapDay "hall" "two"), (1, onLeapDay "room" "three")],
      annWithRooms.db.clientId call.2.author ≠ 0 := by decide
  obtain ⟨before, -, hbefore, hread⟩ := run_getHistory_addMessages (s := annWithRooms) rfl
    hauthors (by simp [onLeapDay, valid_leapDay]) hroom
  rw [hread, hbefore rfl]
  simp [onLeapDay]

end WrapperPg

end Messages

end GatewayServer

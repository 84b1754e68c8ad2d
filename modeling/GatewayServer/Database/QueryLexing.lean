import GatewayServer.Lib.SqlLexer
import GatewayServer.Database.WrapperPg

/-!
# What the queries say to PostgreSQL

`WrapperPg` puts the strings of a client between quotes as they are. Each query that has such a
string lexes to the statement its fixed text is written for exactly when no string has a quote,
or a NUL, at which `PQexec` stops to read.

## Main definitions

* `QueryText.Site` — the queries with strings from a client, with these strings
* `QueryText.Site.meant` — the tokens a query is written to have
* `QueryText.cString` — the part of a query that `PQexec` reads
* `QueryText.authAnswer` — `checkAuthUser` over an arbitrary evaluation of tokens

## Main results

* `QueryText.lexes_iff_no_quote` — when a query says what it is written to say, and what
  `checkAuthUser` then returns
* `QueryText.not_lexes_quote` — a login that is read as a condition
-/

namespace GatewayServer

open Lib Lib.Sql

namespace QueryText

/-- `query.c_str()`: what is before the first NUL. -/
def cString (query : String) : List Char := query.toList.takeWhile (· ≠ '\x00')

/-- A query with strings from a client. -/
inductive Site where
  | getClientId (clientName : String)
  | checkAuthUser (clientName : String)
  | checkRegUser (clientName clientPassword : String)
  | hasChannel (channelName : String)
  | getChannelId (channelName : String)
  | createChannel (channelName : String)
  | addMsgHistory (authorId : UserId) (message : ClientTextMsg)
  deriving DecidableEq, Repr

/-- A keyword, a name or a number. -/
def word (text : String) : Token := .word text.toList

/-- A string literal. -/
def literal (value : String) : Token := .literal value.toList

namespace Site

/-- The text that `WrapperPg` builds. -/
def query : Site → String
  | getClientId clientName => QueryText.getClientId clientName
  | checkAuthUser clientName => QueryText.checkAuthUser clientName
  | checkRegUser clientName clientPassword => QueryText.checkRegUser clientName clientPassword
  | hasChannel channelName => QueryText.hasChannel channelName
  | getChannelId channelName => QueryText.getChannelId channelName
  | createChannel channelName => QueryText.createChannel channelName
  | addMsgHistory authorId message => QueryText.addMsgHistory authorId message

/-- The strings that come from a client. -/
def supplied : Site → List String
  | getClientId clientName => [clientName]
  | checkAuthUser clientName => [clientName]
  | checkRegUser clientName clientPassword => [clientName, clientPassword]
  | hasChannel channelName => [channelName]
  | getChannelId channelName => [channelName]
  | createChannel channelName => [channelName]
  | addMsgHistory _ message => [message.channelName, message.text]

/-- The tokens of the fixed text before the first string. -/
def headTokens : Site → List Token
  | getClientId _ =>
    [word "SELECT", word "id", word "FROM", word "clients", word "WHERE", word "login",
      .symbol '=']
  | checkAuthUser _ =>
    [word "SELECT", word "id", .symbol ',', word "password", word "FROM", word "clients",
      word "WHERE", word "login", .symbol '=']
  | checkRegUser _ _ =>
    [word "INSERT", word "INTO", word "clients", .symbol '(', word "login", .symbol ',',
      word "password", .symbol ')', word "VALUES", .symbol '(']
  | hasChannel _ =>
    [word "SELECT", word "channel_name", word "FROM", word "channels", word "WHERE",
      word "channel_name", .symbol '=']
  | getChannelId _ =>
    [word "SELECT", word "DISTINCT", word "id", word "FROM", word "channels", word "WHERE",
      word "channel_name", .symbol '=']
  | createChannel _ =>
    [word "INSERT", word "INTO", word "channels", .symbol '(', word "channel_name", .symbol ')',
      word "VALUES", .symbol '(']
  | addMsgHistory authorId _ =>
    [word "insert", word "into", word "history", .symbol '(', word "client_id", .symbol ',',
      word "channel_name", .symbol ',', word "datetime", .symbol ',', word "message", .symbol ')',
      word "values", .symbol '(', word (toString authorId), .symbol ',']

/-- The tokens from the first string on. -/
def tailTokens : Site → List Token
  | getClientId clientName => [literal clientName, .symbol ';']
  | checkAuthUser clientName => [literal clientName, .symbol ';']
  | checkRegUser clientName clientPassword =>
    [literal clientName, .symbol ',', literal clientPassword, .symbol ')', .symbol ';']
  | hasChannel channelName => [literal channelName, .symbol ';']
  | getChannelId channelName => [literal channelName, .symbol ';']
  | createChannel channelName => [literal channelName, .symbol ')', .symbol ';']
  | addMsgHistory _ message =>
    [literal message.channelName, .symbol ',', literal (timestampText message.dt), .symbol ',',
      literal message.text, .symbol ')', .symbol ';']

/-- The one statement that the fixed text is written for. -/
def meant (site : Site) : List Token := site.headTokens ++ site.tailTokens

end Site

/-! ## Numbers -/

theorem isDigit_of_mem_toString {n : ℕ} {c : Char} (h : c ∈ (toString n).toList) :
    c.isDigit = true := by
  rw [show toString n = n.repr from rfl, Nat.repr_eq_ofList_toDigits, String.toList_ofList] at h
  exact Nat.isDigit_of_mem_toDigits (by decide) (by decide) h

theorem isWordChar_of_isDigit {c : Char} (h : c.isDigit = true) : isWordChar c = true := by
  simp [isWordChar, Char.isAlphanum, h]

theorem toString_ne_nil (n : ℕ) : (toString n).toList ≠ [] := by
  rw [show toString n = n.repr from rfl, Nat.repr_eq_ofList_toDigits, String.toList_ofList]
  exact Nat.toDigits_ne_nil

/-- A number that is padded with zeros has digits only. -/
theorem not_mem_padded {c : Char} (h : c.isDigit = false) (width n : ℕ) :
    c ∉ (padded width n).toList := by
  rw [padded, String.toList_append, String.toList_ofList]
  intro hc
  have hdigit : c.isDigit = true := by
    rcases List.mem_append.mp hc with hc | hc
    · rw [List.eq_of_mem_replicate hc]
      rfl
    · exact isDigit_of_mem_toString hc
  rw [h] at hdigit
  exact Bool.false_ne_true hdigit

/-- The characters of a timestamp are digits and what is between them. -/
theorem not_mem_timestampText {c : Char} (h : c.isDigit = false) (hc : c ∉ ['-', ' ', ':'])
    (dt : DateTime) : c ∉ (timestampText dt).toList := by
  simp only [List.mem_cons, List.not_mem_nil, or_false, not_or] at hc
  simp [timestampText, String.toList_append, not_mem_padded h, hc]

theorem scan_toString (n : ℕ) :
    scan .plain (toString n).toList = ([], .word (toString n).toList) := by
  cases hdigits : (toString n).toList with
  | nil => exact absurd hdigits (toString_ne_nil n)
  | cons d ds =>
    have hword : ∀ c ∈ d :: ds, isWordChar c = true := by
      rw [← hdigits]
      exact fun c hc => isWordChar_of_isDigit (isDigit_of_mem_toString hc)
    have hd : d.isDigit = true := isDigit_of_mem_toString (hdigits ▸ List.mem_cons_self)
    have hquote : d ≠ '\'' := by
      rintro rfl
      exact absurd hd (by decide)
    have hdash : d ≠ '-' := by
      rintro rfl
      exact absurd hd (by decide)
    have hbegin : begin d = ([], .word [d]) := by
      rw [begin, if_neg hquote, if_neg hdash, if_pos (hword d List.mem_cons_self)]
    have hrest := scan_word (fun c hc => hword c (List.mem_cons_of_mem d hc)) [d]
    simp [scan, step, hbegin, hrest]

/-! ## The queries as templates -/

/-- A string between quotes, and the end of a `SELECT`. -/
def closing (value : String) : Slot .plain where
  value := value.toList
  text := "';".toList
  tokens := [.symbol ';']
  scan_text _ := rfl
  count_text := rfl

/-- A string between quotes, and the end of an `INSERT`. -/
def closingParen (value : String) : Slot .plain where
  value := value.toList
  text := "');".toList
  tokens := [.symbol ')', .symbol ';']
  scan_text _ := rfl
  count_text := rfl

/-- A string between quotes, with another one to follow. -/
def separated (value : String) : Slot (.literal []) where
  value := value.toList
  text := "', '".toList
  tokens := [.symbol ',']
  scan_text _ := rfl
  count_text := rfl

/-- The text before the first string of the `INSERT` of a message. -/
def messageHead (authorId : UserId) : String :=
  "insert into history(client_id, channel_name, datetime, message) " ++
    "values (" ++ toString authorId ++ ", '"

theorem toList_messageHead (authorId : UserId) : (messageHead authorId).toList =
    "insert into history(client_id, channel_name, datetime, message) ".toList ++
      ("values (".toList ++ ((toString authorId).toList ++ ", '".toList)) := by
  unfold messageHead
  rw [String.toList_append, String.toList_append, String.toList_append, List.append_assoc,
    List.append_assoc]

theorem scan_messageHead (authorId : UserId) (message : ClientTextMsg) :
    scan .plain (messageHead authorId).toList =
      ((Site.addMsgHistory authorId message).headTokens, .literal []) := by
  have hinsert : scan .plain
      "insert into history(client_id, channel_name, datetime, message) ".toList =
        ([word "insert", word "into", word "history", .symbol '(', word "client_id",
          .symbol ',', word "channel_name", .symbol ',', word "datetime", .symbol ',',
          word "message", .symbol ')'], .plain) := by
    decide +kernel
  have hvalues : scan .plain "values (".toList = ([word "values", .symbol '('], .plain) := by
    decide +kernel
  have hafter (text : List Char) :
      scan (.word text) ", '".toList = ([.word text, .symbol ','], .literal []) := rfl
  rw [toList_messageHead, scan_append, scan_append, scan_append, hinsert, hvalues, scan_toString,
    hafter]
  simp only [Site.headTokens, word, List.cons_append, List.nil_append]

theorem count_messageHead (authorId : UserId) (message : ClientTextMsg) :
    (messageHead authorId).toList.count '\'' =
      1 + weight (Site.addMsgHistory authorId message).headTokens := by
  have hinsert :
      "insert into history(client_id, channel_name, datetime, message) ".toList.count '\'' = 0 := by
    decide +kernel
  have hvalues : "values (".toList.count '\'' = 0 := rfl
  have hnumber : (toString authorId).toList.count '\'' = 0 := by
    apply List.count_eq_zero.mpr
    intro hmem
    exact absurd (isDigit_of_mem_toString hmem) (by decide)
  have hafter : ", '".toList.count '\'' = 1 := rfl
  rw [toList_messageHead, List.count_append, List.count_append, List.count_append, hinsert,
    hvalues, hnumber, hafter]
  simp only [Site.headTokens, word, weight_cons, weight_nil, Token.weight]

namespace Site

/-- The text before the first string. -/
def head : Site → String
  | getClientId _ => "SELECT id FROM clients WHERE login='"
  | checkAuthUser _ => "SELECT id, password FROM clients WHERE login='"
  | checkRegUser _ _ => "INSERT INTO clients(login, password) VALUES ('"
  | hasChannel _ => "SELECT channel_name FROM channels WHERE channel_name='"
  | getChannelId _ => "SELECT DISTINCT id FROM channels WHERE channel_name='"
  | createChannel _ => "INSERT INTO channels(channel_name) VALUES ('"
  | addMsgHistory authorId _ => messageHead authorId

/-- The strings between quotes but the last. The timestamp is among them. -/
def slots : Site → List (Slot (.literal []))
  | checkRegUser clientName _ => [separated clientName]
  | addMsgHistory _ message =>
    [separated message.channelName, separated (timestampText message.dt)]
  | _ => []

/-- The last string between quotes. -/
def last : Site → Slot .plain
  | getClientId clientName => closing clientName
  | checkAuthUser clientName => closing clientName
  | checkRegUser _ clientPassword => closingParen clientPassword
  | hasChannel channelName => closing channelName
  | getChannelId channelName => closing channelName
  | createChannel channelName => closingParen channelName
  | addMsgHistory _ message => closingParen message.text

theorem scan_head (site : Site) :
    scan .plain site.head.toList = (site.headTokens, .literal []) := by
  cases site with
  | addMsgHistory authorId message => exact scan_messageHead authorId message
  | _ =>
    simp only [head, headTokens]
    decide +kernel

theorem count_head (site : Site) :
    site.head.toList.count '\'' = 1 + weight site.headTokens := by
  cases site with
  | addMsgHistory authorId message => exact count_messageHead authorId message
  | _ =>
    simp only [head, headTokens]
    decide +kernel

/-- A query as fixed text with strings between quotes. -/
def template (site : Site) : Template where
  head := site.head.toList
  headTokens := site.headTokens
  scan_head := site.scan_head
  count_head := site.count_head
  slots := site.slots
  last := site.last

theorem toList_query (site : Site) : site.query.toList = site.template.text := by
  cases site with
  | getClientId _ | checkAuthUser _ | hasChannel _ | getChannelId _ | createChannel _ =>
    simp only [Template.text, template, slots, List.flatMap_nil, List.append_nil]
    exact String.toList_append.trans
      ((congrArg (· ++ _) String.toList_append).trans (List.append_assoc ..))
  | checkRegUser clientName clientPassword =>
    show (QueryText.checkRegUser clientName clientPassword).toList = _
    unfold QueryText.checkRegUser
    simp only [Template.text, template, slots, head, last, separated, closingParen,
      List.flatMap_cons, List.flatMap_nil, List.append_nil, String.toList_append, List.append_assoc]
  | addMsgHistory authorId message =>
    show (QueryText.addMsgHistory authorId message).toList = _
    unfold QueryText.addMsgHistory
    simp only [Template.text, template, slots, head, last, separated, closingParen,
      toList_messageHead, List.flatMap_cons, List.flatMap_nil, List.append_nil,
      String.toList_append, List.append_assoc]

theorem meant_template (site : Site) : site.template.meant = site.meant := by
  cases site <;>
    simp only [Template.meant, template, meant, tailTokens, slots, last, Slot.meant, closing,
      closingParen, separated, literal, List.flatMap_cons, List.flatMap_nil, List.append_nil,
      List.append_assoc, List.cons_append, List.nil_append]

/-- The fixed text has no NUL. -/
theorem nul_not_mem_fixed (site : Site) : '\x00' ∉ site.template.fixed := by
  cases site with
  | addMsgHistory authorId message =>
    have hnumber : '\x00' ∉ (toString authorId).toList :=
      fun hmem => absurd (isDigit_of_mem_toString hmem) (by decide)
    have hinsert : '\x00' ∉
        "insert into history(client_id, channel_name, datetime, message) ".toList := by
      decide +kernel
    simp only [Template.fixed, template, head, slots, last, separated, closingParen,
      toList_messageHead, List.flatMap_cons, List.flatMap_nil, List.mem_append, not_or]
    exact ⟨⟨⟨hinsert, by decide, hnumber, by decide⟩, by decide, by decide, by decide⟩, by decide⟩
  | _ =>
    simp only [Template.fixed, template, head, slots, last, closing, closingParen, separated,
      List.flatMap_cons, List.flatMap_nil]
    decide +kernel

/-- A timestamp is never in the way, so only the strings from the client count. -/
theorem values_template_iff (site : Site) :
    (∀ value ∈ site.template.values, '\'' ∉ value ∧ '\x00' ∉ value) ↔
      ∀ x ∈ site.supplied, '\'' ∉ x.toList ∧ '\x00' ∉ x.toList := by
  cases site with
  | addMsgHistory authorId message =>
    have hquote := not_mem_timestampText (c := '\'') rfl (by decide) message.dt
    have hnul := not_mem_timestampText (c := '\x00') rfl (by decide) message.dt
    simp [Template.values, template, slots, last, separated, closingParen, supplied, hquote, hnul]
  | _ => simp [Template.values, template, slots, last, separated, closing, closingParen, supplied]

end Site

/-! ## Authentication -/

/-- `checkAuthUser` when PostgreSQL answers the tokens that the query lexes to. -/
def authAnswer (answer : List Token → Database → Option (List (UserId × String)))
    (settings : InputSettings) (db : Database) : UserId :=
  WrapperPg.authResult settings
    ((lex (cString (checkAuthUser settings.clientName))).bind fun tokens => answer tokens db)

theorem lex_query_iff (site : Site) : lex (cString site.query) = some site.meant ↔
    ∀ x ∈ site.supplied, '\'' ∉ x.toList ∧ '\x00' ∉ x.toList := by
  rw [cString, site.toList_query, ← site.meant_template,
    Template.lex_takeWhile_iff site.nul_not_mem_fixed, site.values_template_iff]

section Answer

variable {answer : List Token → Database → Option (List (UserId × String))}
  (hanswer : ∀ clientName db, answer (Site.checkAuthUser clientName).meant db =
    some ((db.clients.select fun c => c.login = clientName).map fun r => (r.id, r.data.password)))
  {settings : InputSettings} (hquote : '\'' ∉ settings.clientName.toList)
  (hnul : '\x00' ∉ settings.clientName.toList)

include hanswer hquote hnul

theorem authAnswer_eq (db : Database) : authAnswer answer settings db =
    WrapperPg.authResult settings
      (some ((db.clients.select fun c => c.login = settings.clientName).map fun r =>
        (r.id, r.data.password))) := by
  -- a login without a quote stays in its literal, so the statement is the one meant
  have hlex : lex (cString (checkAuthUser settings.clientName)) =
      some (Site.checkAuthUser settings.clientName).meant := by
    apply (lex_query_iff (.checkAuthUser settings.clientName)).mpr
    intro x hx
    obtain rfl := List.mem_singleton.mp hx
    exact ⟨hquote, hnul⟩
  rw [authAnswer, hlex, Option.bind_some, hanswer]

/-- The effect that `WrapperPg.checkAuthUser` has is the answer to its text. -/
theorem run_checkAuthUser_eq_authAnswer {s : Postgres} (hfaults : s.faults = []) :
    (WrapperPg.connected.checkAuthUser settings).run s =
      (.ok (authAnswer answer settings s.db), s) := by
  rw [WrapperPg.run_checkAuthUser hfaults, authAnswer_eq hanswer hquote hnul]

end Answer

/-- A query lexes to the one statement it is written for, with the strings from the client as its
literals, exactly when these strings have no quote and no NUL. With such a login, and if that
statement selects the rows of the login, `checkAuthUser` returns only ids of rows with the
login. -/
theorem lexes_iff_no_quote (site : Site) :
    (lex (cString site.query) = some site.meant ↔
      ∀ x ∈ site.supplied, '\'' ∉ x.toList ∧ '\x00' ∉ x.toList) ∧
    ∀ answer : List Token → Database → Option (List (UserId × String)),
      (∀ clientName db, answer (Site.checkAuthUser clientName).meant db =
        some ((db.clients.select fun c => c.login = clientName).map fun r =>
          (r.id, r.data.password))) →
      ∀ (settings : InputSettings) (db : Database), '\'' ∉ settings.clientName.toList →
        '\x00' ∉ settings.clientName.toList →
        authAnswer answer settings db ≠ AUTH_LOGIN_IS_NOT_AVAILABLE →
          ∃ r ∈ db.clients.rows, r.id = authAnswer answer settings db ∧
            r.data.login = settings.clientName := by
  refine ⟨lex_query_iff site, ?_⟩
  intro answer hanswer settings db hquote hnul
  rw [authAnswer_eq hanswer hquote hnul]
  cases hselect : db.clients.select fun c => c.login = settings.clientName with
  | nil => exact fun hne => absurd rfl hne
  | cons r rows =>
    intro hne
    -- the first row that is selected decides
    have hmem := hselect ▸ List.mem_cons_self (a := r) (l := rows)
    obtain ⟨hrow, hlogin⟩ := SerialTable.mem_select.mp hmem
    refine ⟨r, hrow, ?_, of_decide_eq_true hlogin⟩
    simp only [List.map_cons, WrapperPg.authResult] at hne ⊢
    -- another password gives no id
    split at hne
    · rw [if_pos ‹_›]
    · exact absurd rfl hne

/-- An evaluation that looks for the login among the literals. -/
def selectByLiteral (tokens : List Token) (db : Database) : Option (List (UserId × String)) :=
  some ((db.clients.select fun c => literal c.login ∈ tokens).map fun r => (r.id, r.data.password))

theorem literal_mem_checkAuthUser {login clientName : String} :
    literal login ∈ (Site.checkAuthUser clientName).meant ↔ login = clientName := by
  simp [Site.meant, Site.headTokens, Site.tailTokens, literal, word, String.toList_inj]

theorem lexes_iff_no_quote_ann :
    lex (cString (Site.checkAuthUser "ann").query) = some (Site.checkAuthUser "ann").meant ∧
      ∃ r ∈ (Database.empty.insertClient ⟨"ann", "pw"⟩).clients.rows,
        r.id = 1 ∧ r.data.login = "ann" := by
  have hquery := (lexes_iff_no_quote (.checkAuthUser "ann")).1
  have hauth := (lexes_iff_no_quote (.checkAuthUser "ann")).2 selectByLiteral
    (fun clientName db => by simp only [selectByLiteral, literal_mem_checkAuthUser])
    ⟨"ann", "pw"⟩ (Database.empty.insertClient ⟨"ann", "pw"⟩) (by decide) (by decide)
  have hanswer : authAnswer selectByLiteral ⟨"ann", "pw"⟩
      (Database.empty.insertClient ⟨"ann", "pw"⟩) = 1 := by
    decide +kernel
  rw [hanswer] at hauth
  exact ⟨hquery.mpr (by decide), by simpa [eq_comm] using hauth (by decide)⟩

/-- With the login `' OR '1'='1` the lookup has a condition that holds of every row. -/
theorem not_lexes_quote :
    lex (cString (Site.checkAuthUser "' OR '1'='1").query) =
        some ((Site.checkAuthUser "").headTokens ++
          [literal "", word "OR", literal "1", .symbol '=', literal "1", .symbol ';']) ∧
      ¬ ∀ site : Site, lex (cString site.query) = some site.meant := by
  have hlex : lex (cString (Site.checkAuthUser "' OR '1'='1").query) =
      some ((Site.checkAuthUser "").headTokens ++
        [literal "", word "OR", literal "1", .symbol '=', literal "1", .symbol ';']) := by
    decide +kernel
  refine ⟨hlex, ?_⟩
  intro h
  have hmeant := h (.checkAuthUser "' OR '1'='1")
  rw [hlex] at hmeant
  exact absurd hmeant (by decide +kernel)

end QueryText

end GatewayServer

import Proxora.Dialogues
import Proxora.SmtpMail
import Proxora.SmtpReplies

/-!
# A mail session with any server

`sendSmtpMail` of `server/notifications/smtp.ts` as a dialogue with a server that may answer
anything at any step, or break off. The end of the socket is left out.

`sendSmtpMail_safe` says what is put to the server in every run: nothing after an answer that was
not accepted, nothing but greetings on a plain socket unless the server has refused `STARTTLS`, and
all of `writes` where the mail counts as sent.
-/

namespace Proxora.Smtp

open Ecma Dialogues Runs

/-! ## The dialogue -/

inductive SmtpStep : Type
  | ehlo
  | startTls
  | authLogin
  | username
  | password
  | mailFrom
  | rcptTo
  | data
  | quit
deriving DecidableEq

/-- The line of a command. -/
def SmtpStep.line (config : SmtpConfig) : SmtpStep → Text
  | ehlo => "EHLO proxora"
  | startTls => "STARTTLS"
  | authLogin => "AUTH LOGIN"
  | username => base64Encode (utf8Encode (config.username.getD []))
  | password => base64Encode (utf8Encode (config.password.getD []))
  | mailFrom => Smtp.mailFrom config
  | rcptTo => Smtp.rcptTo config
  | data => "DATA"
  | quit => "QUIT"

/-- The code that is required of its reply; any is taken for `STARTTLS` and `QUIT`. -/
def SmtpStep.code : SmtpStep → Nat
  | ehlo | mailFrom | rcptTo => 250
  | startTls => 220
  | authLogin | username => 334
  | password => 235
  | data => 354
  | quit => 221

/-- What is put to the server, on a TLS socket or a plain one. -/
inductive SmtpQuestion : Type
  | connect (tls : Bool)
  | greeting (tls : Bool)
  | command (tls : Bool) (step : SmtpStep)
  | upgradeTls
  | message (tls : Bool) (text : Text)

@[reducible] def SmtpQuestion.Answer : SmtpQuestion → Type
  | .connect _ | .upgradeTls => Except Text Unit
  | .greeting _ | .command _ _ | .message _ _ => Except Text SmtpReply

abbrev SmtpDialogue (α : Type) : Type := Dialogue SmtpQuestion SmtpQuestion.Answer Text α

abbrev SmtpExchange : Type := Exchange SmtpQuestion.Answer

abbrev SmtpHistory : Type := History SmtpQuestion.Answer

/-- An `await` throws the error. -/
def awaited {α : Type} : Except Text α → SmtpDialogue α
  | .ok a => .result a
  | .error e => .fail e

/-- The code, or another one of its hundred. -/
def accepts (reply : SmtpReply) (code : Nat) : Bool :=
  reply.code = code || reply.code / 100 = code / 100

/-- `reply.lines.join(" ") || …` -/
def replyError (reply : SmtpReply) : Text :=
  if join ' ' reply.lines ≠ [] then join ' ' reply.lines
  else "SMTP ".toList ++ (toString reply.code : String).toList

def requireCode (reply : SmtpReply) (code : Nat) : SmtpDialogue Unit :=
  if accepts reply code then .result () else .fail (replyError reply)

def command (tls : Bool) (step : SmtpStep) : SmtpDialogue SmtpReply :=
  .ask (.command tls step) awaited

def requireCommand (tls : Bool) (step : SmtpStep) : SmtpDialogue Unit := do
  let reply ← command tls step
  requireCode reply step.code

/-- Whether the socket is a TLS one behind `STARTTLS`. -/
def negotiate (config : SmtpConfig) : SmtpDialogue Bool :=
  if !config.secure && config.port ≠ .finite 465 then do
    let start ← command false .startTls
    if start.code = 220 then do
      .ask .upgradeTls awaited
      requireCommand true .ehlo
      pure true
    else pure false
  else pure config.secure

def authenticate (config : SmtpConfig) (tls : Bool) : SmtpDialogue Unit :=
  if config.username.getD [] ≠ [] then do
    requireCommand tls .authLogin
    requireCommand tls .username
    requireCommand tls .password
  else pure ()

/-- `DATA` and the mail. -/
def transmit (config : SmtpConfig) (tls : Bool) (subject text : Text) : SmtpDialogue Unit := do
  requireCommand tls .mailFrom
  requireCommand tls .rcptTo
  requireCommand tls .data
  let reply ← .ask (.message tls (messageText config subject text)) awaited
  requireCode reply 250

def sendSmtpMail (config : SmtpConfig) (subject text : Text) : SmtpDialogue Unit := do
  .ask (.connect config.secure) awaited
  let greeting ← .ask (.greeting config.secure) awaited
  requireCode greeting 220
  requireCommand config.secure .ehlo
  let tls ← negotiate config
  authenticate config tls
  transmit config tls subject text
  (do let _ ← command tls .quit; pure ()).rescue fun _ => pure ()

/-! ## What may be put to the server -/

/-- The socket that a question goes over. -/
def SmtpQuestion.onTls : SmtpQuestion → Bool
  | .connect tls | .greeting tls | .command tls _ | .message tls _ => tls
  | .upgradeTls => false

/-- The question says who logs in, or something of the mail. -/
def SmtpQuestion.confidential : SmtpQuestion → Bool
  | .command _ .ehlo | .command _ .startTls => false
  | .command _ _ | .message _ _ => true
  | .connect _ | .greeting _ | .upgradeTls => false

/-- The code that the answer to a question needs; none is needed for `STARTTLS` and `QUIT`. -/
def SmtpQuestion.required : SmtpQuestion → Option Nat
  | .greeting _ => some 220
  | .command _ .startTls | .command _ .quit => none
  | .command _ step => some step.code
  | .message _ _ => some 250
  | .connect _ | .upgradeTls => none

/-- The reply of an exchange. -/
def reply? : SmtpExchange → Option SmtpReply
  | ⟨.greeting _, .ok reply⟩ | ⟨.command _ _, .ok reply⟩ | ⟨.message _ _, .ok reply⟩ => some reply
  | _ => none

/-- The server has gone along. -/
def Granted (e : SmtpExchange) : Prop :=
  ∀ code ∈ e.question.required, ∃ reply ∈ reply? e, accepts reply code = true

/-- The server has answered `STARTTLS` with something else than its consent. -/
def Refused (past : SmtpHistory) : Prop :=
  ∃ e ∈ past, e.question = .command false .startTls ∧ ∃ reply ∈ reply? e, reply.code ≠ 220

/-- Nothing follows what was not granted; a server that is spoken to by TLS only hears nothing in
the clear, and others nothing confidential before they have refused. -/
def MayWrite (config : SmtpConfig) (past : SmtpHistory) (q : SmtpQuestion) : Prop :=
  (∀ e ∈ past, Granted e) ∧ (config.secure = true → q.onTls = true) ∧
    (q.confidential = true → q.onTls = true ∨ Refused past)

/-- The text that an exchange has written. -/
def SmtpQuestion.text (config : SmtpConfig) : SmtpQuestion → Option Text
  | .command _ step => some (step.line config)
  | .message _ text => some text
  | .connect _ | .greeting _ | .upgradeTls => none

/-- What was written, in order. -/
def written (config : SmtpConfig) (past : SmtpHistory) : List Text :=
  past.reverse.filterMap fun e => e.question.text config

/-- Everything was granted and written. -/
def Delivered (config : SmtpConfig) (subject text : Text) (past : SmtpHistory) : Prop :=
  (∀ e ∈ past, Granted e) ∧ ∃ tls, written config past = writes config tls subject text

/-! ## One step -/

variable {config : SmtpConfig} {past : SmtpHistory} {tls : Bool} {step : SmtpStep}
  {texts : List Text}

/-- Every answer may come. -/
def Any (_ : SmtpHistory) (_ : SmtpExchange) : Prop := True

theorem granted_of_reply {q : SmtpQuestion} {answer : q.Answer} {reply : SmtpReply} {code : Nat}
    (required : q.required = some code) (heard : reply? ⟨q, answer⟩ = some reply)
    (accepted : accepts reply code = true) : Granted ⟨q, answer⟩ := by
  intro other needed
  rw [required] at needed
  cases needed
  exact ⟨reply, heard, accepted⟩

/-- A code that is required is there, or the dialogue fails. -/
theorem abides_requireCode {reply : SmtpReply} {code : Nat} {May : SmtpHistory → SmtpQuestion → Prop}
    {Post : SmtpHistory → Prop} (accepted : accepts reply code = true → Post past) :
    (requireCode reply code).Abides Any May (fun now outcome => ∀ a, outcome = .ok a → Post now)
      past := by
  rw [requireCode]
  split
  · next fine => exact fun _ _ => accepted fine
  · exact nofun

theorem written_cons {e : SmtpExchange} :
    written config (e :: past) = written config past ++ (e.question.text config).toList := by
  rw [written, written, List.reverse_cons, List.filterMap_append]
  cases text : e.question.text config with
  | none => simp [text]
  | some line => simp [text]

theorem Refused.cons {e : SmtpExchange} (refused : Refused past) : Refused (e :: past) := by
  obtain ⟨found, member, said⟩ := refused
  exact ⟨found, List.mem_cons_of_mem e member, said⟩

/-- What has been written on the way, and that the socket is safe for more. -/
structure Stage (config : SmtpConfig) (tls : Bool) (texts : List Text) (past : SmtpHistory) :
    Prop where
  granted : ∀ e ∈ past, Granted e
  written : written config past = texts
  secure : config.secure = true → tls = true

/-- One more exchange of a stage. -/
theorem Stage.cons {e : SmtpExchange} (stage : Stage config tls texts past) (granted : Granted e) :
    Stage config tls (texts ++ (e.question.text config).toList) (e :: past) := by
  refine ⟨List.forall_mem_cons.mpr ⟨granted, stage.granted⟩, ?_, stage.secure⟩
  rw [written_cons, stage.written]

/-- The socket is safe for what is confidential. -/
def Safe (tls : Bool) (past : SmtpHistory) : Prop := tls = true ∨ Refused past

theorem Safe.cons {e : SmtpExchange} (safe : Safe tls past) : Safe tls (e :: past) :=
  safe.imp id Refused.cons

/-- **Command rule.** -/
theorem abides_requireCommand (stage : Stage config tls texts past)
    (required : (SmtpQuestion.command tls step).required = some step.code)
    (safe : (SmtpQuestion.command tls step).confidential = true → Safe tls past) :
    (requireCommand tls step).Abides Any (MayWrite config) (fun now outcome => ∀ a, outcome = .ok a →
      Stage config tls (texts ++ [step.line config]) now ∧ (Safe tls past → Safe tls now)) past := by
  refine Dialogue.Abides.bind ⟨⟨stage.granted, stage.secure, safe⟩, fun answer _ => ?_⟩ nofun
  cases answer with
  | error e => exact nofun
  | ok reply =>
      intro heard same
      cases same
      apply abides_requireCode
      intro accepted
      exact ⟨stage.cons (granted_of_reply required rfl accepted), Safe.cons⟩

/-! ## The parts of a session -/

/-- What needs no code is granted. -/
theorem granted_of_free {q : SmtpQuestion} {answer : q.Answer} (free : q.required = none) :
    Granted ⟨q, answer⟩ := by
  intro code needed
  rw [free] at needed
  cases needed

theorem greetings_of_plain (plain : config.secure = false) (port : config.port ≠ .finite 465)
    (took : Bool) : greetings config took = "EHLO proxora".toList :: "STARTTLS".toList ::
      if took then ["EHLO proxora".toList] else [] := by
  have asks : (!false && decide (config.port ≠ .finite 465)) = true := decide_eq_true port
  rw [greetings, plain, if_pos asks]

theorem abides_negotiate (stage : Stage config config.secure ["EHLO proxora"] past)
    (port : config.secure = false → config.port ≠ .finite 465) :
    (negotiate config).Abides Any (MayWrite config) (fun now outcome => ∀ tls, outcome = .ok tls →
      Safe tls now ∧ ∃ took, Stage config tls (greetings config took) now) past := by
  rw [negotiate]
  split
  · next plain =>
      have clear : config.secure = false := by
        simp only [Bool.and_eq_true, Bool.not_eq_true'] at plain
        exact plain.1
      have told := greetings_of_plain clear (port clear)
      rw [clear] at stage
      refine Dialogue.Abides.bind ⟨⟨stage.granted, stage.secure, nofun⟩, fun answer _ => ?_⟩ nofun
      cases answer with
      | error e => exact nofun
      | ok start =>
          intro heard same
          cases same
          have asked := stage.cons (e := ⟨.command false .startTls, .ok start⟩) (granted_of_free rfl)
          split
          · next consent =>
              refine Dialogue.Abides.bind ⟨⟨asked.granted, asked.secure, nofun⟩,
                fun answer _ => ?_⟩ nofun
              cases answer with
              | error e => exact nofun
              | ok done =>
                  intro _ _
                  have upgraded := asked.cons (e := ⟨.upgradeTls, .ok done⟩) (granted_of_free rfl)
                  have onTls : Stage config true _ _ :=
                    ⟨upgraded.granted, upgraded.written, fun _ => rfl⟩
                  have greets := @abides_requireCommand config _ true .ehlo _ onTls rfl nofun
                  refine Dialogue.Abides.bind (greets.mono ?_) fun _ _ => nofun
                  intro now outcome greeted _ same tls result
                  cases result
                  obtain ⟨said, -⟩ := greeted () same
                  refine ⟨Or.inl rfl, true, ?_⟩
                  rw [told true]
                  exact said
          · next other =>
              intro tls result
              cases result
              refine ⟨Or.inr ⟨_, List.mem_cons_self, rfl, start, rfl, other⟩, false, ?_⟩
              rw [told false]
              exact asked
  · next plain =>
      intro tls result
      cases result
      have secure : config.secure = true := by
        cases clear : config.secure with
        | true => rfl
        | false => exact absurd (by simp [clear, port clear]) plain
      refine ⟨Or.inl secure, false, ?_⟩
      have told : greetings config false = ["EHLO proxora".toList] := by
        rw [greetings, secure]
        rfl
      rw [told]
      exact stage

theorem login_of_name (named : config.username.getD [] ≠ []) :
    login config = [SmtpStep.authLogin.line config, SmtpStep.username.line config,
      SmtpStep.password.line config] := by
  cases user : config.username with
  | none => exact absurd (by rw [user, Option.getD_none]) named
  | some username =>
      have given : username ≠ [] := by
        rw [user, Option.getD_some] at named
        exact named
      have name : SmtpStep.username.line config = base64Encode (utf8Encode username) :=
        congrArg (fun name : Option Text => base64Encode (utf8Encode (name.getD []))) user
      rw [name]
      simp only [login, user, given, if_false]
      rfl

theorem abides_authenticate (stage : Stage config tls texts past) (safe : Safe tls past) :
    (authenticate config tls).Abides Any (MayWrite config) (fun now outcome => ∀ a, outcome = .ok a →
      Stage config tls (texts ++ login config) now ∧ Safe tls now) past := by
  rw [authenticate]
  split
  · next named =>
      rw [login_of_name named]
      refine Dialogue.Abides.bind ((abides_requireCommand stage rfl fun _ => safe).mono ?_) nofun
      intro now outcome asked _ same
      obtain ⟨stage, keeps⟩ := asked () same
      have safe := keeps safe
      refine Dialogue.Abides.bind ((abides_requireCommand stage rfl fun _ => safe).mono ?_) nofun
      intro now outcome asked _ same
      obtain ⟨stage, keeps⟩ := asked () same
      have safe := keeps safe
      refine (abides_requireCommand stage rfl fun _ => safe).mono ?_
      intro now outcome asked a same
      obtain ⟨stage, keeps⟩ := asked () same
      rw [List.append_assoc, List.append_assoc] at stage
      exact ⟨stage, keeps safe⟩
  · next nameless =>
      intro a same
      have none : login config = [] := by
        cases user : config.username with
        | none => rw [login, user]
        | some username =>
            have blank : username = [] := by
              rw [user] at nameless
              exact not_not.mp nameless
            rw [login, user]
            exact if_pos blank
      rw [none, List.append_nil]
      exact ⟨stage, safe⟩

theorem abides_transmit (stage : Stage config tls texts past) (safe : Safe tls past)
    (subject text : Text) :
    (transmit config tls subject text).Abides Any (MayWrite config) (fun now outcome =>
      ∀ a, outcome = .ok a → Stage config tls (texts ++ [Smtp.mailFrom config, Smtp.rcptTo config,
        "DATA", messageText config subject text]) now ∧ Safe tls now) past := by
  refine Dialogue.Abides.bind ((abides_requireCommand stage rfl fun _ => safe).mono ?_) nofun
  intro now outcome asked _ same
  obtain ⟨stage, keeps⟩ := asked () same
  have safe := keeps safe
  refine Dialogue.Abides.bind ((abides_requireCommand stage rfl fun _ => safe).mono ?_) nofun
  intro now outcome asked _ same
  obtain ⟨stage, keeps⟩ := asked () same
  have safe := keeps safe
  refine Dialogue.Abides.bind ((abides_requireCommand stage rfl fun _ => safe).mono ?_) nofun
  intro now outcome asked _ same
  obtain ⟨stage, keeps⟩ := asked () same
  have safe := keeps safe
  refine Dialogue.Abides.bind ⟨⟨stage.granted, stage.secure, fun _ => safe⟩, fun answer _ => ?_⟩ nofun
  cases answer with
  | error e => exact nofun
  | ok reply =>
      intro heard same
      cases same
      apply abides_requireCode
      intro accepted
      have sent := stage.cons
        (e := ⟨.message tls (messageText config subject text), .ok reply⟩)
        (@granted_of_reply _ _ _ 250 rfl rfl accepted)
      rw [List.append_assoc, List.append_assoc, List.append_assoc] at sent
      exact ⟨sent, safe.cons⟩

/-! ## Every run -/

theorem abides_quit (stage : Stage config tls texts past) (safe : Safe tls past) :
    ((do let _ ← command tls .quit; pure () : SmtpDialogue Unit).rescue fun _ => pure ()).Abides Any
      (MayWrite config) (fun now _ => Stage config tls (texts ++ ["QUIT".toList]) now) past := by
  refine ⟨⟨stage.granted, stage.secure, fun _ => safe⟩, fun answer _ => ?_⟩
  have ended := stage.cons (e := ⟨.command tls .quit, answer⟩) (granted_of_free rfl)
  cases answer with
  | error e => exact ended
  | ok reply => exact ended

/-- The whole dialogue, from the connection to the end. -/
theorem abides_sendSmtpMail (port : config.secure = false → config.port ≠ .finite 465)
    (subject text : Text) :
    (sendSmtpMail config subject text).Abides Any (MayWrite config)
      (fun now outcome => outcome = .ok () → Delivered config subject text now) [] := by
  have opening : Stage config config.secure [] [] := ⟨nofun, rfl, id⟩
  refine Dialogue.Abides.bind ⟨⟨opening.granted, opening.secure, nofun⟩, fun answer _ => ?_⟩
    fun _ _ => nofun
  cases answer with
  | error e => exact nofun
  | ok connected =>
      intro _ _
      have opening := opening.cons (e := ⟨.connect config.secure, .ok connected⟩)
        (granted_of_free rfl)
      refine Dialogue.Abides.bind ⟨⟨opening.granted, opening.secure, nofun⟩, fun answer _ => ?_⟩
        fun _ _ => nofun
      cases answer with
      | error e => exact nofun
      | ok greeting =>
          intro heard same
          cases same
          refine Dialogue.Abides.bind (abides_requireCode fun accepted => ?_) fun _ _ => nofun
          have greeted := opening.cons (e := ⟨.greeting config.secure, .ok greeting⟩)
            (@granted_of_reply _ _ _ 220 rfl rfl accepted)
          have greets := @abides_requireCommand config _ config.secure .ehlo _ greeted rfl nofun
          refine Dialogue.Abides.bind (greets.mono ?_) fun _ _ => nofun
          intro now outcome asked _ same
          obtain ⟨stage, -⟩ := asked () same
          refine Dialogue.Abides.bind ((abides_negotiate stage port).mono ?_) fun _ _ => nofun
          intro now outcome asked tls same
          obtain ⟨safe, took, stage⟩ := asked tls same
          refine Dialogue.Abides.bind ((abides_authenticate stage safe).mono ?_) fun _ _ => nofun
          intro now outcome asked _ same
          obtain ⟨stage, safe⟩ := asked () same
          refine Dialogue.Abides.bind ((abides_transmit stage safe subject text).mono ?_)
            fun _ _ => nofun
          intro now outcome asked _ same
          obtain ⟨stage, safe⟩ := asked () same
          refine (abides_quit stage safe).mono fun now outcome stage _ => ?_
          refine ⟨stage.granted, took, ?_⟩
          rw [stage.written, writes, List.append_assoc]
          rfl

/-- A configuration that is not secure is tried with `STARTTLS`. -/
theorem port_of_parseSmtpConfig {raw : List (Text × Json Text Double)}
    (parsed : parseSmtpConfig raw = .ok config) :
    config.secure = false → config.port ≠ .finite 465 := by
  rw [parseSmtpConfig] at parsed
  dsimp only at parsed
  split at parsed
  · cases parsed
  split at parsed
  · cases parsed
  · cases parsed
    intro clear
    exact decide_eq_false_iff_not.mp (Bool.or_eq_false_iff.mp clear).2

/-- **Every session.** Whatever the server answers, nothing is put to it that it may not hear, and
where the mail counts as sent the server has gone along with all of it. -/
theorem sendSmtpMail_safe {raw : List (Text × Json Text Double)}
    (parsed : parseSmtpConfig raw = .ok config) (subject text : Text)
    {t : Talk SmtpQuestion SmtpQuestion.Answer Text Unit}
    (run : Reaches Talk.step (Talk.Fairly Any) ⟨sendSmtpMail config subject text, []⟩ t) :
    t.Open (MayWrite config) ∧
      (t.rest = .result () → Delivered config subject text t.past) := by
  have abides := abides_sendSmtpMail (port_of_parseSmtpConfig parsed) subject text
  have kept : t.Abides Any (MayWrite config)
      (fun now outcome => outcome = .ok () → Delivered config subject text now) :=
    run.keeps abides fun _ _ _ before fair happens => before.step fair happens
  refine ⟨kept.mayAsk, fun ended => ?_⟩
  rw [Talk.Abides, ended] at kept
  exact kept rfl

instance (past : SmtpHistory) (e : SmtpExchange) : Decidable (Any past e) := .isTrue trivial

/-- A server that goes along with everything. -/
def consents : ∀ q : SmtpQuestion, q.Answer
  | .connect _ | .upgradeTls => .ok ()
  | .greeting _ => .ok ⟨220, []⟩
  | .command _ step => .ok ⟨step.code, []⟩
  | .message _ _ => .ok ⟨250, []⟩

theorem sendSmtpMail_safe_delivered : ∃ t : Talk SmtpQuestion SmtpQuestion.Answer Text Unit,
    Reaches Talk.step (Talk.Fairly Any) ⟨sendSmtpMail (addressedConfig "a@b") "Down" "off", []⟩ t ∧
      Delivered (addressedConfig "a@b") "Down" "off" t.past := by
  have parsed := @parseSmtpConfig_addressed "a@b" (by decide) (by decide)
  obtain ⟨t, done, ended⟩ : ∃ t, exec (guarded Talk.step (Talk.Fairly Any))
      ⟨sendSmtpMail (addressedConfig "a@b") "Down" "off", []⟩ (List.replicate 11 consents) =
        some t ∧ t.rest = .result () := ⟨_, rfl, rfl⟩
  have run := reaches_of_guarded done
  exact ⟨t, run, (sendSmtpMail_safe parsed "Down" "off" run).2 ended⟩

end Proxora.Smtp

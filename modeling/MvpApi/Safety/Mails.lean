import MvpApi.Infrastructure.Mailer
import MvpApi.Runs.Effects
import MvpApi.Runs.Calls

/-!
# Invitations by mail

Whoever invites an address has committed an invitation by the time its mail is sent: what is read
in the mail is the name of the workspace, and a link with the token that finds the invitation. A
mail that cannot be sent takes nothing back, and where nothing is committed no mail is sent.
-/

set_option autoImplicit false

namespace MvpApi

open Exec Program

section Mails

variable {μ : Type → Type} {β : Type} {env : Env} {Others : Work → Prop} {sender : String}
  {s s' : Session}

/-- How the services outside answer, as far as mails go: a mail that is not refused is sent, and
nothing else sends any. -/
def Posts (sender : String) (request : Request μ β) (mails : List Mail) (y : Except Failure β)
    (mails' : List Mail) : Prop :=
  match β, request, y with
  | _, .sendInvitation email workspaceName url, y =>
      mails' = mails ++ [SesMailer.sendInvitation sender email workspaceName url]
        ∨ mails' = mails ∧ ∃ e, y = .error e
  | _, _, _ => mails' = mails

/-- Any request may fail, and others run transactions meanwhile. -/
def mailing (env : Env) (Others : Work → Prop) (sender : String) : Setting μ (List Mail) where
  env := env
  Others := Others
  Fails _ := True
  Outside := Posts sender
  Allows _ _ _ := True

/-- An invitation that has been issued is found by its token. -/
theorem WorkspaceTx.Issued.found {workspaceId email roleId userId token : String}
    {workspace : Workspace} {invitation : Invitation}
    (h : Issued env s workspaceId email roleId userId workspace invitation token s')
    (unique : s'.db.Unique) :
  s'.db.invitations.find? (·.tokenHash = env.sha256 token) = some invitation
  := by
  have stored : invitation ∈ s'.db.invitations := by
    rw [h.db]
    exact Table.mem_put.mpr (Or.inl rfl)
  have hash : invitation.tokenHash = env.sha256 token := by rw [h.shape]; rfl
  refine Table.find?_eq_some_of_unique stored (decide_eq_true hash) fun other hother same => ?_
  refine Table.eq_of_key hother stored ?_
  exact unique.tokenHash other hother invitation stored ((of_decide_eq_true same).trans hash.symm)

/-- A call that invites an address has committed an invitation or raises an error. If the mail has
been sent, then what is read in it is the name of the workspace, and a link with the token of that
invitation; without an invitation no mail has been sent. -/
theorem invitation_mailed {service : WorkspaceService μ} {workspaceId email roleId userId : String}
    {w w' : World (List Mail)} {z : Except Failure CreatedInvitation}
    (run : Ends (mailing env Others sender).machine
      (service.invite workspaceId email roleId userId) w z w') :
  (∃ e, z = .error e) ∧ w'.commits = w.commits ∧ w'.outside = w.outside
    ∨ ∃ (s s' : Session) (workspace : Workspace) (invitation : Invitation) (token url : String),
      z = .ok ⟨⟨invitation, none⟩, url⟩ ∧ w'.commits = (s.db, s'.db) :: w.commits
        ∧ s.db.live workspaceId = some workspace ∧ invitation.email = env.lower email
        ∧ invitation.status = .pending
        ∧ s'.db.invitations.find? (·.tokenHash = env.sha256 token) = some invitation
        ∧ url = service.webBaseUrl ++ "/invite?workspace=" ++ workspace.slug ++ "&token=" ++ token
        ∧ (w'.outside = w.outside ∨ ∃ mail, w'.outside = w.outside ++ [mail]
          ∧ mail.toAddresses = [env.lower email]
          ∧ Html.read mail.html.toList = some (Mail.invitation workspace.name url))
  := by
  unfold WorkspaceService.invite at run
  obtain ⟨⟨workspace, invitation, token⟩, w₁, transacted, run⟩ | ⟨e, transacted, rfl⟩ :=
    ends_bind.mp run
  · cases Setting.ends_transaction transacted with
    | commit meanwhile returns unique =>
        have issued := WorkspaceTx.issued returns
        have addressed : invitation.email = env.lower email := by rw [issued.shape]; rfl
        have pending : invitation.status = .pending := by rw [issued.shape]; rfl
        obtain ⟨_, w₂, mailed, run⟩ | ⟨_, mailed, _⟩ := ends_bind.mp run
        · obtain ⟨rfl, rfl⟩ := ends_done.mp run
          obtain ⟨_, sent, _⟩ := ends_outcome.mp mailed
          obtain ⟨_, s₂, _, answered⟩ :=
            Setting.answers_outside (by exact not_false) (ends_perform.mp sent)
          refine Or.inr ⟨_, _, workspace, invitation, token, _, rfl, ?_, issued.live, addressed,
            pending, issued.found unique, rfl, ?_⟩
          · obtain ⟨_, _, rfl⟩ | ⟨_, rfl, _⟩ := answered
            · rfl
            · rfl
          · obtain ⟨mails, posted, rfl⟩ | ⟨_, rfl, _⟩ := answered
            · obtain posted | ⟨same, _⟩ := posted
              · refine Or.inr ⟨_, posted, ?_, Mail.read_sendInvitation _ _ _ _⟩
                rw [addressed]
                rfl
              · exact Or.inl same
            · exact Or.inl rfl
        · obtain ⟨_, _, ended⟩ := ends_outcome.mp mailed
          cases ended
  · cases Setting.ends_transaction transacted with
    | fail meanwhile => exact Or.inl ⟨⟨e, rfl⟩, rfl, rfl⟩

end Mails

/-! ### A mail to Bob -/

/-- Ada invites Bob to a workspace of which the name has the characters of markup, and he reads it as
she has written it. -/
theorem invitation_mailed_of_acme :
  ∃ (w' : World (List Mail)) (mail : Mail) (url : String),
    w'.outside = [mail] ∧ mail.toAddresses = ["bob@acme.test"]
    ∧ Html.read mail.html.toList = some (Mail.invitation "<b>Acme</b> & Sons" url)
  := by
  let m : Setting MediaRequest (List Mail) := mailing .sample (fun _ => False) "app@app.test"
  let s : Session := .after .sample [.register "ada" "ada@acme.test" "Ada" none,
    .create "<b>Acme</b> & Sons" "acme" "ada"]
  let w : World (List Mail) := ⟨s, [], []⟩
  let body := WorkspaceTx.issue "i" "Bob@acme.test" "iiii" "ada"
  have returned : ((body.run .sample s).1.map fun _ => ()) = .ok () := by decide +kernel
  have unique : (body.run .sample s).2.db.Unique := by decide +kernel
  obtain ⟨⟨workspace, invitation, token⟩, issued, _⟩ := Except.map_eq_ok.mp returned
  let mail := SesMailer.sendInvitation "app@app.test" invitation.email workspace.name
    ("https://app.test" ++ "/invite?workspace=" ++ workspace.slug ++ "&token=" ++ token)
  let w₁ := w.commit s (body.run .sample s).2
  have committed : Ends m.machine (transaction body : Service MediaRequest _) w
      (.ok (workspace, invitation, token)) w₁ :=
    Setting.commits trivial .refl (.of_run issued) unique
  have sent : Ends m.machine (perform (.sendInvitation invitation.email workspace.name
      ("https://app.test" ++ "/invite?workspace=" ++ workspace.slug ++ "&token=" ++ token)) :
        Service MediaRequest Unit) w₁ (.ok ()) ⟨w₁.session, [mail], w₁.commits⟩ :=
    ends_perform.mpr ⟨trivial, .outside .refl id (Or.inl rfl)⟩
  have run : Ends m.machine (WorkspaceService.invite ⟨.port id, "https://app.test"⟩ "i"
      "Bob@acme.test" "iiii" "ada") w _ ⟨w₁.session, [mail], w₁.commits⟩ :=
    ends_bind.mpr (Or.inl ⟨_, w₁, committed,
      ends_bind.mpr (Or.inl ⟨_, _, ends_outcome.mpr ⟨_, sent, rfl⟩, .done _ _⟩)⟩)
  have acme : (s.db.live "i").map Workspace.name = some "<b>Acme</b> & Sons" := by
    decide +kernel
  have lower : Env.sample.lower "Bob@acme.test" = "bob@acme.test" := by decide +kernel
  obtain ⟨_, _, same⟩ | ⟨s₁, s₂, workspace', _, _, url, _, commits, live, _, _, _, _,
    same | ⟨mail', same, recipients, read⟩⟩ := invitation_mailed run
  · cases same
  · cases same
  · obtain ⟨hdb, _⟩ := Prod.mk.inj (List.cons.inj commits).1
    rw [hdb, live] at acme
    rw [Option.some.inj acme] at read
    exact ⟨_, mail', url, same, recipients.trans (congrArg (fun email => [email]) lower), read⟩

end MvpApi

import MvpApi.Library.Html

/-!
# Mails of invitations

What is sent to the address that is invited. Names of workspaces and links are escaped: whatever
they are, the mail is read as the same markup, with the name as a text in it and with the link as
what it leads to.
-/

set_option autoImplicit false

namespace MvpApi

/-- A mail that is sent through SES. -/
structure Mail where
  fromEmailAddress : String
  toAddresses : List String
  subject : String
  text : String
  html : String
deriving DecidableEq, Repr

namespace SesMailer

/-- `html.escape`. -/
def escape (text : String) : String := String.ofList (Html.escape text.toList)

def sendInvitation (sender email workspaceName url : String) : Mail where
  fromEmailAddress := sender
  toAddresses := [email]
  subject := "You're invited to join " ++ workspaceName
  text := "You've been invited to join " ++ workspaceName ++ ".\n\nAccept the invitation: " ++ url
    ++ "\n"
  html := "<p>You've been invited to join <strong>" ++ escape workspaceName ++ "</strong>.</p>"
    ++ ("<p><a href=\"" ++ escape url ++ "\">Accept the invitation</a></p>")

end SesMailer

/-! ### What is read -/

namespace Mail

def paragraph : Html.Tag := ⟨false, ['p'], []⟩
def paragraphEnd : Html.Tag := ⟨true, ['p'], []⟩
def strong : Html.Tag := ⟨false, "strong".toList, []⟩
def strongEnd : Html.Tag := ⟨true, "strong".toList, []⟩
def link (url : String) : Html.Tag := ⟨false, ['a'], [("href".toList, url.toList)]⟩
def linkEnd : Html.Tag := ⟨true, ['a'], []⟩

def invited : List Char := "You've been invited to join ".toList
def accept : List Char := "Accept the invitation".toList

/-- What the mail of an invitation is to be read as. -/
def invitation (workspaceName url : String) : Html.Document where
  pieces := [([], paragraph), (invited, strong), (workspaceName.toList, strongEnd),
    (['.'], paragraphEnd), ([], paragraph), ([], link url), (accept, linkEnd), ([], paragraphEnd)]
  last := []

/-- The texts of the mail as they are written, each with the tag after it. -/
def written (workspaceName url : String) : List (List Char × Html.Tag) :=
  [([], paragraph), (invited, strong), (Html.escape workspaceName.toList, strongEnd),
    (['.'], paragraphEnd), ([], paragraph), ([], link url), (accept, linkEnd), ([], paragraphEnd)]

theorem clean_written {workspaceName url : String} {piece : List Char × Html.Tag}
    (h : piece ∈ written workspaceName url) :
  piece.2.Clean
  := by
  have plain {closing : Bool} {name : List Char} (nonempty : name ≠ [])
      (letters : name.all Html.isName = true) : Html.Tag.Clean ⟨closing, name, []⟩ :=
    ⟨nonempty, List.all_eq_true.mp letters, nofun⟩
  simp only [written, List.mem_cons, List.not_mem_nil, or_false] at h
  obtain rfl | rfl | rfl | rfl | rfl | rfl | rfl | rfl := h
  case inr.inr.inr.inr.inr.inl =>
    refine ⟨List.cons_ne_nil _ _, List.all_eq_true.mp rfl, fun entry hentry => ?_⟩
    rw [List.mem_singleton.mp hentry]
    have letters : "href".toList.all Html.isName = true := by decide
    exact List.all_eq_true.mp letters
  all_goals exact plain (by decide) (by decide)

theorem inert_written {workspaceName url : String} {piece : List Char × Html.Tag}
    (h : piece ∈ written workspaceName url) :
  ∀ c ∈ piece.1, c ≠ '<'
  := by
  have plain {text : List Char} (none : text.all (· ≠ '<') = true) : ∀ c ∈ text, c ≠ '<' :=
    fun c hc => of_decide_eq_true (List.all_eq_true.mp none c hc)
  simp only [written, List.mem_cons, List.not_mem_nil, or_false] at h
  obtain rfl | rfl | rfl | rfl | rfl | rfl | rfl | rfl := h
  case inr.inr.inl => exact fun c hc => (Html.escape_inert hc).1
  case inr.inr.inr.inr.inr.inl => exact nofun
  all_goals exact plain (by decide)

theorem html_sendInvitation (sender email workspaceName url : String) :
  (SesMailer.sendInvitation sender email workspaceName url).html.toList
    = (written workspaceName url).flatMap fun piece => piece.1 ++ piece.2.write
  := by
  have begins : "<p>You've been invited to join <strong>".toList
      = paragraph.write ++ (invited ++ strong.write) := by decide
  have sentence : "</strong>.</p>".toList = strongEnd.write ++ (['.'] ++ paragraphEnd.write) := by
    decide
  have leads : "<p><a href=\"".toList = paragraph.write ++ "<a href=\"".toList := by decide
  have ends : "\">Accept the invitation</a></p>".toList
      = "\">".toList ++ (accept ++ (linkEnd.write ++ paragraphEnd.write)) := by decide
  have linked : "<a href=\"".toList ++ (Html.escape url.toList ++ "\">".toList)
      = (link url).write := by
    simp [link, Html.Tag.write, Html.writeAttribute]
  simp only [SesMailer.sendInvitation, SesMailer.escape, String.toList_append, String.toList_ofList,
    begins, sentence, leads, ends, written, List.flatMap_cons, List.flatMap_nil, List.append_assoc,
    List.nil_append, List.append_nil]
  rw [← linked]
  simp only [List.append_assoc]

/-- Whatever the name of a workspace and a link are, the mail of an invitation is read as it is to
be. -/
theorem read_sendInvitation (sender email workspaceName url : String) :
  Html.read (SesMailer.sendInvitation sender email workspaceName url).html.toList
    = some (invitation workspaceName url)
  := by
  have invited : Html.unescape invited = invited := by decide
  have accept : Html.unescape accept = accept := by decide
  have inert : ∀ piece ∈ written workspaceName url, ∀ c ∈ piece.1, c ≠ '<' := fun _ => inert_written
  have clean : ∀ piece ∈ written workspaceName url, piece.2.Clean := fun _ => clean_written
  have read := Html.read_written inert clean (List.forall_mem_nil (· ≠ '<'))
  rw [List.append_nil, ← html_sendInvitation sender email] at read
  rw [read]
  simp [written, invitation, invited, accept, Html.unescape_escape, Html.unescape]

end Mail

end MvpApi

import RemoteSettings.Http.Client
import RemoteSettings.Proofs.Http.Rejection
import RemoteSettings.Proofs.Json.Characters
import RemoteSettings.Proofs.Text.Symbol

/-!
# What replies say

Whatever bytes come back, a reply says exactly one thing.  Under a status of success it is JSON or
nothing, and an error if it is neither.  Under any other status it is a rejection, if the body is
one and has a code, and otherwise no more than its status and its beginning.

## Main definitions

* `Reply.Says` — what a body of success says.
* `Reply.Refuses` — the rejection that a body carries.

## Main results

* `Reply.ofAccepted_eq_ok_iff`, `Reply.exists_refusal_iff` — bodies of success, and others.
* `Client.replies_are_classified` — **every reply is taken for what it is.**
-/

namespace RemoteSettings

open Grammar

/-! ### White space is no JSON -/

/-- A form feed is no blank, but neither does a value begin with one. -/
theorem Grammar.Spells.ne_formFeed {t : Tree} {x : Symbol} {s rest : List Symbol}
    (h : Spells (.value t) (x :: s) rest) : x ≠ .char '\x0c' := by
  cases h with
  | positive _ hmagnitude =>
    obtain ⟨y, u, d, heq, hdigit⟩ := hmagnitude.exists_digit
    cases heq
    rintro rfl
    cases hdigit
  | _ => decide

theorem Symbol.ofBytes_of_ascii {body : List UInt8} (h : ∀ b ∈ body, b.toNat < 0x80) :
    ofBytes body = body.map fun b => .char (Char.ofNat b.toNat) := by
  rw [ofBytes]
  induction body with
  | nil => rfl
  | cons b body ih =>
    obtain ⟨hb, hbody⟩ := List.forall_mem_cons.mp h
    rw [read, first, if_pos hb, List.map_cons, ih hbody]

namespace Reply

/-- The bytes that are white space. -/
def spaces : List UInt8 := [0x9, 0xA, 0xC, 0xD, 0x20]

theorem isSpace_iff (b : UInt8) : isSpace b = true ↔ b ∈ spaces := by
  simp only [isSpace, spaces, Bool.or_eq_true, beq_iff_eq, List.mem_cons, List.not_mem_nil]
  grind

/-- What is all white space is no JSON. -/
theorem not_document_of_spaces {body : List UInt8} (h : ∀ b ∈ body, b ∈ spaces) (t : Tree) :
    ¬Document t (Symbol.ofBytes body) := by
  have hascii : ∀ b ∈ body, b.toNat < 0x80 := by
    have hspaces : (spaces.all fun b => decide (b.toNat < 0x80)) = true := rfl
    exact fun b hb => of_decide_eq_true (List.all_eq_true.mp hspaces b (h b hb))
  rintro ⟨s₁, rest, hfront, ht, -⟩
  obtain ⟨x, s', rfl, hblank, -⟩ := ht.exists_cons
  have hmem : x ∈ Symbol.ofBytes body := by
    obtain ⟨blanks, -, hbody⟩ := hfront
    rw [hbody]
    exact List.mem_append_right _ List.mem_cons_self
  rw [Symbol.ofBytes_of_ascii hascii] at hmem
  obtain ⟨b, hb, rfl⟩ := List.mem_map.mp hmem
  have hcases : (spaces.all fun b => Reader.isBlank (.char (Char.ofNat b.toNat)) ||
      Char.ofNat b.toNat == '\x0c') = true := rfl
  rcases Bool.or_eq_true_iff.mp (List.all_eq_true.mp hcases b (h b hb)) with hyes | hfeed
  · cases hblank.symm.trans hyes
  · exact ht.ne_formFeed (congrArg Symbol.char (eq_of_beq hfeed))

/-! ### Replies of success -/

/-- What a body of success says: nothing if it is all white space, or else what its JSON means. -/
inductive Says (body : List UInt8) : Json → Prop
  | nothing (blank : ∀ b ∈ body, b ∈ spaces) : Says body .null
  | json {text : List Char} {t : Tree} {j : Json} (bytes : body = Symbol.utf8 text)
    (document : Document t (text.map .char)) (meaning : t.json? 127 = some j) : Says body j

theorem ofAccepted_eq_ok_iff {body : List UInt8} {j : Json} :
    ofAccepted body = .ok j ↔ Says body j := by
  by_cases hspace : ∀ b ∈ body, b ∈ spaces
  · have hall : body.all isSpace = true :=
      List.all_eq_true.mpr fun b hb => (isSpace_iff b).mpr (hspace b hb)
    rw [ofAccepted, if_pos hall]
    constructor
    · intro h
      cases h
      exact .nothing hspace
    · rintro (_ | ⟨rfl, hdocument, -⟩)
      · rfl
      · rw [← Symbol.ofBytes_utf8] at hdocument
        exact absurd hdocument (not_document_of_spaces hspace _)
  · have hall : ¬body.all isSpace = true := fun h =>
      hspace fun b hb => (isSpace_iff b).mp (List.all_eq_true.mp h b hb)
    rw [ofAccepted, if_neg hall]
    constructor
    · intro h
      obtain ⟨t, hdocument, hj⟩ := Json.read_eq_ok_iff.mp (mapError_eq_ok h)
      obtain ⟨text, htext⟩ := exists_chars_of_json? hdocument hj
      refine .json (Symbol.chars?_ofBytes_eq_some_iff.mp ?_) (htext ▸ hdocument) hj
      rw [htext, Symbol.chars?_map_char]
    · rintro (hblank | ⟨rfl, hdocument, hj⟩)
      · exact absurd hblank hspace
      · rw [← Symbol.ofBytes_utf8] at hdocument
        rw [Json.read_eq_ok_iff.mpr ⟨_, hdocument, hj⟩]
        rfl

/-- A body of success that says nothing at all cannot be decoded. -/
theorem exists_ofAccepted_eq_error {body : List UInt8} (h : ∀ j, ¬Says body j) :
    ∃ e, ofAccepted body = .error (.decode e) := by
  cases hreply : ofAccepted body with
  | ok j => exact absurd (ofAccepted_eq_ok_iff.mp hreply) (h j)
  | error f =>
    unfold ofAccepted at hreply
    split at hreply
    · cases hreply
    · cases hread : Json.read (Symbol.ofBytes body) with
      | ok j =>
        rw [hread] at hreply
        cases hreply
      | error e =>
        rw [hread] at hreply
        cases hreply
        exact ⟨e.message, rfl⟩

/-! ### Other replies -/

/-- The rejection that a body carries: it is the body's own text, and has a code. -/
structure Refuses (body : List UInt8) (r : Rejection) : Prop where
  exists_tree : ∃ t, Document t (Symbol.ofBytes body) ∧ Rejection.ofTree? t = some r
  code : r.code ≠ ""

theorem filter_ofBody?_eq_some_iff {body : List UInt8} {r : Rejection} :
    (Rejection.ofBody? (Symbol.ofBytes body)).filter (·.code != "") = some r ↔ Refuses body r := by
  rw [Option.filter_eq_some_iff, Rejection.ofBody?_eq_some_iff, bne_iff_ne]
  exact ⟨fun h => ⟨h.1, h.2⟩, fun h => ⟨h.exists_tree, h.code⟩⟩

theorem refusal_eq_rejected_iff {status : Nat} {body : List UInt8} {r : Rejection} :
    refusal status body = .rejected (some status) r ↔ Refuses body r := by
  rw [← filter_ofBody?_eq_some_iff, refusal]
  cases (Rejection.ofBody? (Symbol.ofBytes body)).filter (·.code != "") with
  | none => exact ⟨(nomatch ·), (nomatch ·)⟩
  | some r' =>
    constructor
    · intro h
      cases h
      rfl
    · intro h
      cases h
      rfl

theorem refusal_eq_of_forall_not {status : Nat} {body : List UInt8} (h : ∀ r, ¬Refuses body r) :
    refusal status body = .http status (preview body) := by
  have hnone : (Rejection.ofBody? (Symbol.ofBytes body)).filter (·.code != "") = none :=
    Option.eq_none_iff_forall_ne_some.mpr fun r hr => h r (filter_ofBody?_eq_some_iff.mp hr)
  rw [refusal, hnone]

/-- The preview of a text shows its first characters. -/
theorem shows_preview (text : List Char) :
    Symbol.Shows 512 text (preview (Symbol.utf8 text)).toList := by
  rw [preview, String.toList_ofList]
  exact Symbol.shows_lossy previewLimit text

end Reply

/-- **Every reply is taken for what it is.**  Let a message be answered with a status and a body.

* If the status means success, the answer is what the body says, if it says something, and otherwise
  an error of decoding.
* If not, the answer is the rejection that the body carries, with the status, if it carries one; and
  otherwise the status and a preview.  Of a text the preview shows the characters within the first
  512 bytes, and a replacement character if one is cut. -/
theorem Client.replies_are_classified {c : Client} {network : Network} {request : Request}
    {target : Target} {message : Message} (hprepared : c.prepare request = .ok (target, message))
    {status : Nat} {body : List UInt8}
    (hanswered : network target message = .answered status body) :
    (200 ≤ status ∧ status < 300 →
      (∀ j, c.request network request = .ok j ↔ Reply.Says body j) ∧
      ((∀ j, ¬Reply.Says body j) → ∃ e, c.request network request = .error (.decode e))) ∧
    (¬(200 ≤ status ∧ status < 300) →
      (∀ r, c.request network request = .error (.rejected (some status) r) ↔
        Reply.Refuses body r) ∧
      ((∀ r, ¬Reply.Refuses body r) → ∃ preview,
        c.request network request = .error (.http status preview) ∧
        ∀ text, body = Symbol.utf8 text → Symbol.Shows 512 text preview.toList)) := by
  have hrequest : c.request network request = Reply.ofBody status body := by
    rw [Client.request, hprepared]
    dsimp only
    rw [hanswered, receive]
  have hsuccess : Reply.isSuccess status = true ↔ 200 ≤ status ∧ status < 300 := by
    simp [Reply.isSuccess]
  rw [hrequest, Reply.ofBody]
  constructor
  · intro hstatus
    rw [if_pos (hsuccess.mpr hstatus)]
    exact ⟨fun j => Reply.ofAccepted_eq_ok_iff, Reply.exists_ofAccepted_eq_error⟩
  · intro hstatus
    rw [if_neg (mt hsuccess.mp hstatus)]
    refine ⟨fun r => ?_, fun hnone => ?_⟩
    · rw [← Reply.refusal_eq_rejected_iff]
      exact ⟨Except.error.inj, congrArg Except.error⟩
    · rw [Reply.refusal_eq_of_forall_not hnone]
      refine ⟨_, rfl, ?_⟩
      rintro text rfl
      exact Reply.shows_preview text

/-- A client of a service on the same machine. -/
def localClient : Client := ⟨"http://localhost", "agent", .ofSeconds 30⟩

/-- A network on which every message is answered alike. -/
def Network.answering (status : Nat) (text : List Char) : Network :=
  fun _ _ => .answered status (Symbol.utf8 text)

/-- A list is what a reply of success says, and a rejection under another status; and any other text
is shown, here with a character that is cut. -/
theorem Client.list_is_classified :
    localClient.request (.answering 201 ['[', '"', 'é', '"', ']']) (.get "/a")
        = .ok (.array [.string "é"]) ∧
      localClient.request (.answering 404 ['[', '"', 'é', '"', ']']) (.get "/a")
        = .error (.rejected (some 404) ⟨"é", "", none⟩) ∧
      ∃ preview, localClient.request (.answering 500 ('a' :: List.replicate 300 'é')) (.get "/a")
          = .error (.http 500 preview) ∧
        Symbol.Shows 512 ('a' :: List.replicate 300 'é') preview.toList := by
  obtain ⟨target, message, hprepared⟩ : ∃ target message,
      localClient.prepare (.get "/a") = .ok (target, message) := ⟨_, _, rfl⟩
  refine ⟨?_, ?_, ?_⟩
  · have hclasses := replies_are_classified hprepared
      (show Network.answering 201 ['[', '"', 'é', '"', ']'] target message = _ from rfl)
    exact ((hclasses.1 (by decide)).1 _).mpr (Reply.ofAccepted_eq_ok_iff.mp rfl)
  · have hclasses := replies_are_classified hprepared
      (show Network.answering 404 ['[', '"', 'é', '"', ']'] target message = _ from rfl)
    exact ((hclasses.2 (by decide)).1 _).mpr (Reply.filter_ofBody?_eq_some_iff.mp rfl)
  · have hclasses := replies_are_classified hprepared
      (show Network.answering 500 ('a' :: List.replicate 300 'é') target message = _ from rfl)
    have hnone : ∀ r, ¬Reply.Refuses (Symbol.utf8 ('a' :: List.replicate 300 'é')) r := by
      intro r h
      have hread := Reply.filter_ofBody?_eq_some_iff.mpr h
      rw [Symbol.ofBytes_utf8, List.map_cons,
        Rejection.ofBody?_eq_none rfl (by decide) (by decide)] at hread
      cases hread
    obtain ⟨preview, hpreview, hshows⟩ := (hclasses.2 (by decide)).2 hnone
    exact ⟨preview, hpreview, hshows _ rfl⟩

end RemoteSettings

import Mathlib.Tactic.MkIffOfInductiveProp
import SchemaClient.Exchange.Client
import SchemaClient.Proofs.Json.Reading

/-!
# Reported errors

A response is read as a whole before its errors are looked at. So reported errors surface exactly
if nothing in the body keeps it from being read: an entry whose locations or path are `null`, a
repeated field, half a character, or a value that is nested too deep.
-/

namespace SchemaClient

open Json Json.Outline Json.Reader

/-! ## Bodies that report errors -/

/-- The number of a line or a column. -/
def IsCoordinate (x : Outline) : Prop :=
  ∃ n, x = .number (some (.int n)) ∧ 0 ≤ n ∧ n ≤ positionLimit

structure IsPosition (ms : Members) : Prop where
  line : Given "line" IsCoordinate ms
  column : Given "column" IsCoordinate ms

/-- Everything but the message may be missing or `null`, and the extensions may be anything. -/
structure IsEntry (ms : Members) : Prop where
  message : Given "message" (fun x => ∃ c, x = .text c) ms
  locations : ∀ x ∈ valuesOf "locations" ms, x = .null ∨ ListOf (ObjectOf IsPosition) x
  path : ∀ x ∈ valuesOf "path" ms, x = .null ∨ ∃ xs, x = .items xs none

/-- The members of a body have errors; its data and its extensions may be anything. -/
def ReportsErrors (ms : Members) : Prop :=
  Given "errors" (fun x => x ≠ .items [] none ∧ ListOf (ObjectOf IsEntry) x) ms

/-! ## Bodies that can be read -/

@[mk_iff]
structure LegiblePosition (ms : Members) : Prop where
  keys : KeysWhole ms
  line : AtMostOnce "line" IsCoordinate ms
  column : AtMostOnce "column" IsCoordinate ms

/-- Locations and path may be missing, but `null` is no list. -/
@[mk_iff]
structure LegibleEntry (ms : Members) : Prop where
  keys : KeysWhole ms
  message : AtMostOnce "message" (fun x => ∃ s, x = .text (.ok s)) ms
  locations : AtMostOnce "locations" (ListOf (ObjectOf LegiblePosition)) ms
  path : AtMostOnce "path" (ListOf (IsFree 123)) ms
  extensions : AtMostOnce "extensions" (IsFree 124) ms

/-- The parts of a body that are read have 127 levels of nesting at most, the body's included. -/
@[mk_iff]
structure LegibleBody (ms : Members) : Prop where
  keys : KeysWhole ms
  data : AtMostOnce "data" (IsFree 126) ms
  errors : AtMostOnce "errors" (ListOf (ObjectOf LegibleEntry)) ms
  extensions : AtMostOnce "extensions" (IsFree 126) ms

/-- The report has the messages of the body in their order, and its extensions. -/
structure Conveys (ms : Members) (report : ServerReport) : Prop where
  messages : ∃ xs, valuesOf "errors" ms = [.items xs none] ∧ List.Forall₂
    (fun x e => ObjectOf (fun es => valuesOf "message" es = [.text (.ok e.message)]) x) xs
    report.errors
  extensions : report.extensions = ((valuesOf "extensions" ms).head?.bind value?).filter (!·.isNull)

/-! ## Positions and entries -/

def positionSlots : List (Slot DocumentPositionDraft) :=
  [⟨Int, "line", integer 0 positionLimit, (·.line), fun v d => { d with line := some v }⟩,
    ⟨Int, "column", integer 0 positionLimit, (·.column), fun v d => { d with column := some v }⟩]

def entrySlots : List (Slot ServerErrorDraft) :=
  [⟨String, "message", string, (·.message), fun v d => { d with message := some v }⟩,
    ⟨List DocumentPosition, "locations", list documentPosition, (·.locations),
      fun v d => { d with locations := some v }⟩,
    ⟨List Json, "path", list json, (·.path), fun v d => { d with path := some v }⟩,
    ⟨Option Json, "extensions", option json, (·.extensions),
      fun v d => { d with extensions := some v }⟩]

theorem independent_positionSlots : Independent positionSlots where
  names := by decide
  get_set := by simp [positionSlots]
  get_set_ne := by simp [positionSlots]

theorem independent_entrySlots : Independent entrySlots where
  names := by decide
  get_set := by simp [entrySlots]
  get_set_ne := by simp [entrySlots]

section Entries

variable {ms : Members} {depth : Nat} {e : ServerError}

theorem exists_coordinate_iff {x : Outline} :
    (∃ n, integer 0 positionLimit depth x = .ok n) ↔ IsCoordinate x := by
  simp only [integer_eq_ok_iff, IsCoordinate]

theorem exists_documentPosition_iff (h : IsPosition ms) (closed : ClosedMembers ms)
    (deep : 1 < depth) :
    (∃ p, documentPosition depth (.members ms none) = .ok p) ↔ LegiblePosition ms := by
  have complete : ∀ draft, (∀ t ∈ positionSlots, t.Holds (depth - 1) ms draft) →
      ∃ p : DocumentPosition,
        (do pure ⟨(← draft.line).toNat, (← draft.column).toNat⟩) = some p := by
    intro draft holds
    simp only [positionSlots, List.forall_mem_cons] at holds
    obtain ⟨line, column, -⟩ := holds
    obtain ⟨_, line, -, -, hline⟩ := line.given h.line
    obtain ⟨_, column, -, -, hcolumn⟩ := column.given h.column
    exact ⟨⟨line.toNat, column.toNat⟩, by simp_all⟩
  refine (exists_record_iff independent_positionSlots (by simp [positionSlots]) closed deep
    complete).trans ?_
  simp [positionSlots, Slot.Readable, exists_coordinate_iff, legiblePosition_iff]

theorem exists_path_iff {x : Outline} (closed : x.Closed) (deep : 1 < depth) :
    (∃ vs, list json depth x = .ok vs) ↔ ListOf (IsFree (depth - 2)) x := by
  rw [exists_list_iff closed deep]
  exact ListOf.congr closed fun _ _ y _ closed => exists_json_iff closed (by omega)

theorem exists_serverError_iff (h : IsEntry ms) (closed : ClosedMembers ms) :
    (∃ e, serverError 126 (.members ms none) = .ok e) ↔ LegibleEntry ms := by
  have complete : ∀ draft, (∀ t ∈ entrySlots, t.Holds 125 ms draft) →
      ∃ e : ServerError, (do pure ⟨← draft.message, draft.locations.getD [], draft.path.getD [],
        draft.extensions.getD none⟩) = some e := by
    intro draft holds
    obtain ⟨_, message, -, -, hmessage⟩ := (holds _ (.head _)).given h.message
    exact ⟨⟨message, draft.locations.getD [], draft.path.getD [], draft.extensions.getD none⟩,
      by simp_all⟩
  refine (exists_record_iff independent_entrySlots (by simp [entrySlots]) closed (by omega)
    complete).trans ?_
  have locations : AtMostOnce "locations" (fun x => ∃ ps, list documentPosition 125 x = .ok ps) ms ↔
      AtMostOnce "locations" (ListOf (ObjectOf LegiblePosition)) ms :=
    AtMostOnce.congr fun x hx => exists_objects_iff (closed.of_mem_valuesOf hx) (by omega)
      (h.locations x hx) fun _ position closed =>
        exists_documentPosition_iff position closed (by omega)
  have path : AtMostOnce "path" (fun x => ∃ vs, list json 125 x = .ok vs) ms ↔
      AtMostOnce "path" (ListOf (IsFree 123)) ms :=
    AtMostOnce.congr fun x hx => exists_path_iff (closed.of_mem_valuesOf hx) (by omega)
  have extensions : AtMostOnce "extensions" (fun x => ∃ v, option json 125 x = .ok v) ms ↔
      AtMostOnce "extensions" (IsFree 124) ms :=
    AtMostOnce.congr fun x hx => exists_option_json_iff (closed.of_mem_valuesOf hx) (by omega)
  simp [entrySlots, Slot.Readable, string_eq_ok_iff, locations, path, extensions,
    legibleEntry_iff]

theorem message_of_serverError (h : IsEntry ms) (closed : ClosedMembers ms)
    (read : serverError 126 (.members ms none) = .ok e) :
    valuesOf "message" ms = [.text (.ok e.message)] := by
  obtain ⟨-, draft, holds, finished⟩ :=
    record_spec independent_entrySlots (by simp [entrySlots]) closed read
  obtain ⟨x, s, one, read, hmessage⟩ := (holds _ (.head _)).given h.message
  obtain rfl := string_eq_ok_iff.mp read
  have message : draft.message = some s := hmessage
  rw [message] at finished
  cases finished
  exact one

end Entries

/-! ## Bodies -/

section Bodies

variable {ms : Members} {r : Response}

def responseSlots : List (Slot ResponseDraft) :=
  [⟨Option Json, "data", option json, (·.data), fun v d => { d with data := some v }⟩,
    ⟨Option (List ServerError), "errors", option (list serverError), (·.errors),
      fun v d => { d with errors := some v }⟩,
    ⟨Option Json, "extensions", option json, (·.extensions),
      fun v d => { d with extensions := some v }⟩]

theorem independent_responseSlots : Independent responseSlots where
  names := by decide
  get_set := by simp [responseSlots]
  get_set_ne := by simp [responseSlots]

theorem exists_errors_iff (h : ReportsErrors ms) (closed : ClosedMembers ms) {x : Outline}
    (hx : x ∈ valuesOf "errors" ms) : (∃ es, option (list serverError) 127 x = .ok es) ↔
      ListOf (ObjectOf LegibleEntry) x := by
  obtain ⟨-, entries⟩ := h.all x hx
  rw [exists_option_iff, exists_objects_iff (closed.of_mem_valuesOf hx) (by omega) (.inr entries)
    fun _ => exists_serverError_iff, or_iff_right]
  rintro rfl
  obtain ⟨_, ⟨⟩, _⟩ := entries

theorem exists_response_iff (h : ReportsErrors ms) (closed : ClosedMembers ms) :
    (∃ r, Reader.response budget (.members ms none) = .ok r) ↔ LegibleBody ms := by
  refine (exists_record_iff independent_responseSlots (by simp [responseSlots]) closed (by decide)
    fun draft _ => ⟨_, rfl⟩).trans ?_
  have free (name : String) : AtMostOnce name (fun x => ∃ v, option json 127 x = .ok v) ms ↔
      AtMostOnce name (IsFree 126) ms :=
    AtMostOnce.congr fun x hx => exists_option_json_iff (closed.of_mem_valuesOf hx) (by omega)
  have errors : AtMostOnce "errors" (fun x => ∃ es, option (list serverError) 127 x = .ok es) ms ↔
      AtMostOnce "errors" (ListOf (ObjectOf LegibleEntry)) ms :=
    AtMostOnce.congr fun x => exists_errors_iff h closed
  simp [responseSlots, Slot.Readable, budget, free, errors, legibleBody_iff]

theorem forall₂_message {xs : List Outline} {es : List ServerError} (closed : ClosedItems xs)
    (entries : ∀ x ∈ xs, ObjectOf IsEntry x)
    (read : List.Forall₂ (fun x e => serverError 126 x = .ok e) xs es) :
    List.Forall₂ (fun x e => ObjectOf (fun ms => valuesOf "message" ms = [.text (.ok e.message)]) x)
      xs es := by
  have all : ∀ x ∈ xs, x.Closed ∧ ObjectOf IsEntry x :=
    fun x hx => ⟨closed.of_mem x hx, entries x hx⟩
  refine ((List.forall₂_and_left xs es).mpr ⟨all, read⟩).imp ?_
  rintro x e ⟨⟨closed, ms, rfl, entry⟩, read⟩
  exact ⟨ms, rfl, message_of_serverError entry closed.2 read⟩

theorem conveys_of_response (h : ReportsErrors ms) (closed : ClosedMembers ms)
    (read : Reader.response budget (.members ms none) = .ok r) :
    ∃ report, Conveys ms report ∧ r.report? = some report := by
  obtain ⟨-, draft, holds, finished⟩ :=
    record_spec independent_responseSlots (by simp [responseSlots]) closed read
  cases finished
  obtain ⟨x, v, one, hx, filled⟩ := (holds _ (.tail _ (.head _))).given h
  have hmem : x ∈ valuesOf "errors" ms := one ▸ List.mem_cons_self
  obtain ⟨nonempty, xs, rfl, entries⟩ := h.all x hmem
  have hx : option (list serverError) 127 (.items xs none) = .ok v := hx
  obtain ⟨⟨⟩, -⟩ | ⟨-, es, listed, rfl⟩ := option_eq_ok_iff.mp hx
  have messages := forall₂_message (closed.of_mem_valuesOf hmem).2 entries
    (list_eq_ok_iff.mp listed).2
  obtain ⟨e, es, rfl⟩ : ∃ e later, es = e :: later := by
    cases messages with
    | nil => exact absurd rfl nonempty
    | cons _ _ => exact ⟨_, _, rfl⟩
  have filled : draft.errors = some (some (e :: es)) := filled
  refine ⟨⟨e :: es, draft.extensions.getD none⟩, ⟨⟨xs, one, messages⟩, ?_⟩, ?_⟩
  · obtain ⟨no, empty⟩ | ⟨y, v, one, hy, filled⟩ := holds _ (.tail _ (.tail _ (.head _)))
    · have no : valuesOf "extensions" ms = [] := no
      have empty : draft.extensions = none := empty
      simp [no, empty]
    · have one : valuesOf "extensions" ms = [y] := one
      have filled : draft.extensions = some v := filled
      have closed := closed.of_mem_valuesOf (one ▸ List.mem_cons_self)
      simp [one, filled, option_json_eq closed (by decide) hy]
  · simp [Response.report?, filled]

end Bodies

/-! ## Replies -/

section Replies

variable {m : Type → Type} [Monad m] [LawfulMonad m] {α : Type} {c : Client}
  {accepts : String → Bool} {transport : Transport m} {read : Json.Reader α} {field : String}
  {content : RequestContent} {reply : Reply} {ms : Members}

theorem send_of_reply (accepted : accepts c.endpoint)
    (replied : transport (c.request content) = pure (.ok reply)) :
    c.send accepts transport read field content = pure (reply.value read field) := by
  simp [Client.send, accepted, replied]

theorem reply_response_of_spelt (success : reply.isSuccess)
    (body : Spelt reply.body (.members ms none)) :
    reply.response = (Reader.response budget (.members ms none)).mapError .unreadable := by
  rw [Reply.response, if_pos success, text_of_spelt body]

/-- Whatever the data and the field are, with files or without, a body that reports errors gives the
report if it can be read to its end, and otherwise it is refused as a whole. -/
theorem reported_errors_surface_iff_legible (accepted : accepts c.endpoint)
    (replied : transport (c.request content) = pure (.ok reply)) (success : reply.isSuccess)
    (body : Spelt reply.body (.members ms none)) (errors : ReportsErrors ms) :
    (LegibleBody ms → ∃ report, Conveys ms report ∧
      c.send accepts transport read field content = pure (.error (.server report))) ∧
    (¬ LegibleBody ms → ∃ cause,
      c.send accepts transport read field content = pure (.error (.unreadable cause))) := by
  have closed : ClosedMembers ms := by
    obtain ⟨_, _, _, -, -, spells, -⟩ := body
    exact (closed_of_spells spells).2
  rw [send_of_reply accepted replied, Reply.value, reply_response_of_spelt success body,
    ← exists_response_iff errors closed]
  cases hread : Reader.response budget (.members ms none) with
  | ok r =>
    obtain ⟨report, conveys, reported⟩ := conveys_of_response errors closed hread
    refine ⟨fun _ => ⟨report, conveys, ?_⟩, fun none => (none ⟨r, rfl⟩).elim⟩
    simp [Except.mapError, bind, Except.bind, Response.value, reported]
  | error cause =>
    refine ⟨?_, fun _ => ⟨cause, rfl⟩⟩
    rintro ⟨_, ⟨⟩⟩

end Replies

example : Reply.value ⟨200, "\x7b\"errors\":[\x7b\"message\":\"boom\",\"path\":[\"user\"]\x7d]\x7d"⟩
    Reader.json "user" = .error (.server ⟨[⟨"boom", [], [.str "user"], none⟩], none⟩) := by
  cbv

/-! ## Locations that are `null` -/

def unlocatedErrors : Members :=
  [(.ok "errors", .items [.members [(.ok "message", .text (.ok "boom")), (.ok "locations", .null)]
    none] none)]

theorem spelt_unlocatedErrors : Spelt
    "\x7b\"errors\":[\x7b\"message\":\"boom\",\"locations\":null\x7d]\x7d"
    (.members unlocatedErrors none) := by
  have blank : Blank [] := List.forall_mem_nil _
  have message := Spells.string (characters_of_plain "boom" (by decide))
  have locations := @SpellsMembers.last [] _ [] [] _ [] _ _ blank
    (characters_of_plain "locations" (by decide)) blank blank .null blank
  have entry := Spells.object (@SpellsMembers.cons [] _ [] [] _ [] _ _ _ _ blank
    (characters_of_plain "message" (by decide)) blank blank message blank locations)
  have body := Spells.object (@SpellsMembers.last [] _ [] [] _ [] _ _ blank
    (characters_of_plain "errors" (by decide)) blank blank
    (.array (@SpellsItems.last [] _ [] _ blank entry blank)) blank)
  simp only [content_chars] at body
  exact ⟨[], _, [], rfl, blank, body, blank⟩

theorem reportsErrors_unlocatedErrors : ReportsErrors unlocatedErrors := by
  have entry : IsEntry [(.ok "message", .text (.ok "boom")), (.ok "locations", .null)] := by
    constructor
    · constructor <;> simp [valuesOf]
    · simp [valuesOf]
    · simp [valuesOf]
  constructor
  · simp [unlocatedErrors]
  · simpa [unlocatedErrors, ListOf, ObjectOf] using entry

theorem not_legibleBody_unlocatedErrors : ¬ LegibleBody unlocatedErrors := by
  intro legible
  obtain ⟨_, ⟨⟩, entries⟩ := legible.errors.all _ (List.mem_singleton.mpr rfl)
  obtain ⟨_, ⟨⟩, entry⟩ := entries _ (List.mem_singleton.mpr rfl)
  obtain ⟨_, ⟨⟩, -⟩ := entry.locations.all .null (by simp [valuesOf])

theorem reported_errors_hidden_unlocatedErrors : ∃ cause,
    Client.send ⟨"http://localhost", []⟩ Endpoint.isValid
      (fun _ => (.ok ⟨200,
        "\x7b\"errors\":[\x7b\"message\":\"boom\",\"locations\":null\x7d]\x7d"⟩ : Id _))
      Reader.json "user" (.body .null) = (.error (.unreadable cause) : Id _) :=
  (reported_errors_surface_iff_legible (by decide) rfl (by decide) spelt_unlocatedErrors
    reportsErrors_unlocatedErrors).2 not_legibleBody_unlocatedErrors

end SchemaClient

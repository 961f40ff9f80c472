import MvpApi.Library.Calendar
import MvpApi.Library.Json
import MvpApi.Application.Ports

/-!
# Domain events to AppSync Events

An event is a JSON text inside the JSON body of a request, and there is one request for each
person: it names the channel of that person. Someone who subscribes may only listen on their own
channel. What is heard on a channel is read back from the requests: a request is heard as the
event that it was written for, on the channel that it names and on no other one.
-/

set_option autoImplicit false

namespace MvpApi

open Json

/-! ### What is sent -/

def userChannel (userId : String) : String := "/users/" ++ userId

/-- What subscribers receive. -/
def eventPayload (event : ChangeEvent) : List (String × String) :=
  [("resource", "product"), ("action", event.action), ("id", event.id),
    ("owner_id", event.ownerId), ("at", String.ofList (Calendar.isoformat event.time))]

namespace AppSyncEventPublisher

/-- The event as JSON. -/
def payload (event : ChangeEvent) : Json :=
  .object ((eventPayload event).map fun field => (field.1.toList, .text field.2.toList))

/-- What is sent to a channel. -/
def message (channel : String) (payload : List Char) : Json :=
  .object [("channel".toList, .text channel.toList), ("events".toList, .array [.text payload])]

/-- The body of the request for a person. -/
def body (event : ChangeEvent) (userId : String) : List Char :=
  write (message (userChannel userId) (write (payload event)))

end AppSyncEventPublisher

/-! ### What is heard -/

/-- Whether someone may listen on a channel: nobody listens on someone else's. -/
def onSubscribe (path sub : String) : Bool := path = "/users/" ++ sub

/-- The text at a key of an object. -/
def textAt (value : Json) (key : String) : Option (List Char) :=
  match value.field key.toList with
  | some (.text s) => some s
  | _ => none

/-- The event that a payload stands for. -/
def readPayload (value : Json) : Option ChangeEvent := do
  let resource ← textAt value "resource"
  let action ← textAt value "action"
  let id ← textAt value "id"
  let ownerId ← textAt value "owner_id"
  let time ← Calendar.fromisoformat (← textAt value "at")
  if resource = "product".toList then
    return ⟨String.ofList action, String.ofList id, String.ofList ownerId, time⟩
  else none

variable (half : ℕ → Char)

/-- The event that a text of a message stands for. -/
def readEvent : Json → Option ChangeEvent
  | .text s => (loads half s).bind readPayload
  | _ => none

/-- The events that a request brings to those who listen on a channel. -/
def heardIn (path : String) (body : List Char) : List ChangeEvent :=
  match loads half body with
  | none => []
  | some message =>
      if textAt message "channel" = some path.toList then
        match message.field "events".toList with
        | some (.array events) => events.filterMap (readEvent half)
        | _ => []
      else []

/-- The events that are heard on a channel. -/
def heard (path : String) (bodies : List (List Char)) : List ChangeEvent :=
  bodies.flatMap (heardIn half path)

/-! ### What was sent is heard -/

open AppSyncEventPublisher

theorem numberless_payload (event : ChangeEvent) :
  (payload event).Numberless
  := by
  refine .object fun field hfield => ?_
  obtain ⟨_, _, rfl⟩ := List.mem_map.mp hfield
  exact .text _

theorem numberless_message (channel : String) (payload : List Char) :
  (message channel payload).Numberless
  := by
  refine .object fun field hfield => ?_
  simp only [List.mem_cons, List.not_mem_nil, or_false] at hfield
  rcases hfield with rfl | rfl
  · exact .text _
  · refine .array fun item hitem => ?_
    rw [List.mem_singleton.mp hitem]
    exact .text _

theorem textAt_payload (event : ChangeEvent) :
  textAt (payload event) "resource" = some "product".toList
    ∧ textAt (payload event) "action" = some event.action.toList
    ∧ textAt (payload event) "id" = some event.id.toList
    ∧ textAt (payload event) "owner_id" = some event.ownerId.toList
    ∧ textAt (payload event) "at" = some (String.ofList (Calendar.isoformat event.time)).toList
  := by
  have fields : payload event = .object [("resource".toList, .text "product".toList),
      ("action".toList, .text event.action.toList), ("id".toList, .text event.id.toList),
      ("owner_id".toList, .text event.ownerId.toList),
      ("at".toList, .text (String.ofList (Calendar.isoformat event.time)).toList)] := rfl
  rw [fields]
  exact ⟨rfl, rfl, rfl, rfl, rfl⟩

/-- The payload of an event stands for it. -/
theorem readPayload_payload {event : ChangeEvent} (h : Calendar.InRange event.time) :
  readPayload (payload event) = some event
  := by
  obtain ⟨resource, action, id, owner, time⟩ := textAt_payload event
  unfold readPayload
  rw [resource, action, id, owner, time]
  simp only [Option.bind_eq_bind, Option.bind_some, String.toList_ofList, String.ofList_toList,
    Calendar.fromisoformat_isoformat h, if_true]
  rfl

/-- Two people have two channels. -/
theorem userChannel_inj {userId userId' : String} :
  userChannel userId = userChannel userId' ↔ userId = userId'
  := by
  refine ⟨fun h => ?_, fun h => h ▸ rfl⟩
  have chars := congrArg String.toList h
  rw [userChannel, userChannel, String.toList_append, String.toList_append] at chars
  exact String.toList_inj.mp (List.append_cancel_left chars)

/-- A request is heard as the event that it was written for, and on the channel that it names. -/
theorem heardIn_body {event : ChangeEvent} (h : Calendar.InRange event.time)
    (path userId : String) :
  heardIn half path (body event userId) = if path = userChannel userId then [event] else []
  := by
  have channel : textAt (message (userChannel userId) (write (payload event))) "channel"
      = some (userChannel userId).toList := rfl
  have events : (message (userChannel userId) (write (payload event))).field "events".toList
      = some (.array [.text (write (payload event))]) := rfl
  have named : some (userChannel userId).toList = some path.toList ↔ path = userChannel userId := by
    rw [Option.some_inj, String.toList_inj, eq_comm]
  unfold heardIn body
  rw [loads_write (numberless_message _ _)]
  simp only [channel, events, named]
  split
  · rw [List.filterMap_cons, List.filterMap_nil, readEvent, loads_write (numberless_payload event),
      Option.bind_some, readPayload_payload h]
  · rfl

/-- Requests for different people are heard once by each of them. -/
theorem heard_bodies {event : ChangeEvent} (h : Calendar.InRange event.time) {path sub : String}
    (own : onSubscribe path sub = true) {userIds : List String} (distinct : userIds.Nodup) :
  heard half path (userIds.map (body event)) = if sub ∈ userIds then [event] else []
  := by
  obtain rfl : path = userChannel sub := of_decide_eq_true own
  induction userIds with
  | nil => rfl
  | cons userId userIds ih =>
      obtain ⟨fresh, distinct⟩ := List.nodup_cons.mp distinct
      rw [List.map_cons, heard, List.flatMap_cons, heardIn_body half h, ← heard, ih distinct]
      simp only [userChannel_inj, List.mem_cons]
      by_cases hsub : sub = userId
      · subst hsub
        rw [if_pos rfl, if_neg fresh, if_pos (Or.inl rfl)]
        rfl
      · simp only [hsub, false_or, if_false, List.nil_append]

end MvpApi

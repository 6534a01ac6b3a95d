/-
**The form of a body.**

Under a JSON content type a value may come as data, as its JSON text, or as the bytes of the text in
UTF-8.  Recording sees of a body only the data that is read from it, and whether there is a body at
all; so the three forms of one value lead to the same document, or to the same failure.  The absent
value and texts are left out: as data the one is no body, and the other is read as JSON itself.

Main definitions:

* `ApiScribe.BodyForm` — the forms in which a value may come as a body;
* `ApiScribe.SameBody` — two bodies cannot be told apart by recording.

Main results:

* `ApiScribe.readBody_of_bodyForm` — every form of a value is read as the value;
* `ApiScribe.Document.record_eq_of_sameBody` — recording sees only the data of bodies;
* `ApiScribe.Document.record_eq_of_bodyForm` — **recording does not depend on the form of a body**.
-/

import ApiScribe.Proofs.Json.RoundTrip
import ApiScribe.Recording.Step
import ApiScribe.Traffic.Body

set_option autoImplicit false

namespace ApiScribe

/-! ### Reading a body -/

/-- The forms in which a JSON value may come as a body. -/
inductive BodyForm (v : Value) : Value → Prop
  /-- As data. -/
  | data : BodyForm v v
  /-- As its text. -/
  | text : BodyForm v (.text (Json.text .line v))
  /-- As the bytes of its text. -/
  | bytes : BodyForm v (.atom (.bytes (Utf8.encode (Json.write .line v))))

section

variable {v : Value} (hv : v.IsJson) (htext : ∀ s, v ≠ .text s)

include hv htext

/-- Data that is no text is not read as JSON. -/
theorem bodyText?_eq_none : bodyText? v = none := by
  unfold bodyText?
  split
  · rename_i s
    exact absurd rfl (htext s)
  · exact hv.elim
  · rfl

/-- Every form of a value is read as the value. -/
theorem readBody_of_bodyForm (hwhole : Json.IsWhole v) {b : Value} (hb : BodyForm v b)
    {contentType : Option String} (hjson : announcesJson contentType = true) :
    readBody b contentType = .ok v := by
  rw [readBody, if_pos hjson]
  cases hb with
  | data => rw [bodyText?_eq_none hv htext]
  | text =>
      have hread := @Json.read?_write .line rfl rfl v hv hwhole
      have hbody : bodyText? (.text (Json.text .line v)) = some (some (Json.write .line v)) := by
        rw [bodyText?, Json.text, String.toList_ofList]
      rw [hbody]
      simp only [Option.bind_some, hread]
  | bytes =>
      have hread := @Json.read?_textOfBytes?_write .line rfl rfl v hv hwhole
      rw [bodyText?]
      simp only [hread]

end

/-- No form of a value is the absent value, unless the value is. -/
theorem BodyForm.isNull_eq {v b : Value} (hb : BodyForm v b) (hnull : v.isNull = false) :
    b.isNull = false := by
  cases hb with
  | data => exact hnull
  | text => rfl
  | bytes => rfl

/-! ### Recording sees the data of a body -/

/-- Two bodies with one content type are the same for recording: they are read alike, and both are the
absent value or none is. -/
structure SameBody (contentType : Option String) (b b' : Value) : Prop where
  /-- They are read alike. -/
  read : readBody b contentType = readBody b' contentType
  /-- Both are the absent value, or none is. -/
  isNull : b.isNull = b'.isNull

theorem SameBody.refl (contentType : Option String) (b : Value) : SameBody contentType b b :=
  ⟨rfl, rfl⟩

theorem recordBody_eq_of_sameBody (ps : List Parameter) {request : Request} {b b' : Value}
    (h : SameBody request.contentType? b b') :
    recordBody ps { request with body := b } = recordBody ps { request with body := b' } := by
  have hschema : schemaOfRequestBody b request.contentType?
      = schemaOfRequestBody b' request.contentType? := by
    rw [schemaOfRequestBody, schemaOfRequestBody, h.read]
  have hcontentType (d : Value) :
      Request.contentType? { request with body := d } = request.contentType? := rfl
  unfold recordBody
  simp only [hcontentType, h.isNull, hschema]

theorem recordReply_eq_of_sameBody (existing : Option Response) {reply : Reply} {b b' : Value}
    (h : SameBody reply.contentType? b b') :
    recordReply existing { reply with body := b }
      = recordReply existing { reply with body := b' } := by
  have hschema : schemaOfBody b reply.contentType? = schemaOfBody b' reply.contentType? := by
    rw [schemaOfBody, schemaOfBody, h.read]
  have hcontentType (d : Value) :
      Reply.contentType? { reply with body := d } = reply.contentType? := rfl
  unfold recordReply replySchema
  simp only [hcontentType, hschema]

/-- An exchange with other bodies. -/
def Exchange.withBodies (x : Exchange) (b c : Value) : Exchange :=
  ⟨{ x.request with body := b }, { x.reply with body := c }⟩

section

variable {x : Exchange} {b b' c c' : Value} (hrequest : SameBody x.request.contentType? b b')
  (hreply : SameBody x.reply.contentType? c c')

include hrequest hreply

theorem Operation.record_eq_of_sameBody (op : Operation) (new : List ValueParameter) :
    op.record new (x.withBodies b c) = op.record new (x.withBodies b' c') := by
  have hparameters (ps : List Parameter) :
      recordBody ps (x.withBodies b c).request = recordBody ps (x.withBodies b' c').request :=
    recordBody_eq_of_sameBody ps hrequest
  have hresponse (existing : Option Response) :
      recordReply existing (x.withBodies b c).reply
        = recordReply existing (x.withBodies b' c').reply :=
    recordReply_eq_of_sameBody existing hreply
  unfold Operation.record
  simp only [hparameters, hresponse]
  rfl

/-- **Recording sees only the data of the bodies.** -/
theorem Document.record_eq_of_sameBody (doc : Document) :
    doc.record (x.withBodies b c) = doc.record (x.withBodies b' c') := by
  have hrecordAt (resolution : Template.Resolution) (m : Method) :
      doc.recordAt resolution m (x.withBodies b c)
        = doc.recordAt resolution m (x.withBodies b' c') := by
    unfold recordAt
    simp only [Operation.record_eq_of_sameBody hrequest hreply]
    rfl
  unfold record
  simp only [hrecordAt]
  rfl

end

/-! ### The form of a body -/

section

variable {v : Value} (hv : v.IsJson) (hwhole : Json.IsWhole v) (hnull : v.isNull = false)
  (htext : ∀ s, v ≠ .text s) {b b' : Value} (hb : BodyForm v b) (hb' : BodyForm v b')

include hv hwhole hnull htext hb hb'

theorem sameBody_of_bodyForm {contentType : Option String}
    (hjson : announcesJson contentType = true) : SameBody contentType b b' where
  read := by
    rw [readBody_of_bodyForm hv htext hwhole hb hjson, readBody_of_bodyForm hv htext hwhole hb' hjson]
  isNull := by rw [hb.isNull_eq hnull, hb'.isNull_eq hnull]

/-- **Recording does not depend on the form of a body**, be it that of the request or of the reply:
the document is the same, or the failure. -/
theorem Document.record_eq_of_bodyForm (doc : Document) (x : Exchange) :
    (announcesJson x.request.contentType? = true →
      doc.record { x with request := { x.request with body := b } }
        = doc.record { x with request := { x.request with body := b' } }) ∧
    (announcesJson x.reply.contentType? = true →
      doc.record { x with reply := { x.reply with body := b } }
        = doc.record { x with reply := { x.reply with body := b' } }) := by
  constructor
  · intro hjson
    exact record_eq_of_sameBody (sameBody_of_bodyForm hv hwhole hnull htext hb hb' hjson)
      (.refl _ x.reply.body) doc
  · intro hjson
    exact record_eq_of_sameBody (.refl _ x.request.body)
      (sameBody_of_bodyForm hv hwhole hnull htext hb hb' hjson) doc

end

namespace Document

/-- An order with a quote, a line break, a character outside ASCII and a negative number. -/
def cafeOrder : Value :=
  .object
    [("name", .text "Café \"Zoé\"\n"),
      ("counts", .list [.atom (.int (-12)), .null, .atom (.bool true)])]

/-- An exchange that sends the order and gets it back. -/
def cafeExchange : Exchange :=
  ⟨{ method := "POST", url := "/orders", headers := [("content-type", "application/json")],
      body := cafeOrder },
    { status := 201, headers := [("Content-Type", "Application/JSON; charset=utf-8")],
      body := cafeOrder }⟩

theorem isWhole_cafeOrder : Json.IsWhole cafeOrder := by
  have hcounts : Json.IsWhole (.list [.atom (.int (-12)), .null, .atom (.bool true)]) := by
    refine .list fun v hv => ?_
    simp only [List.mem_cons, List.not_mem_nil, or_false] at hv
    rcases hv with rfl | rfl | rfl <;> exact .atom (by decide)
  refine .object (fun _ _ => trivial) fun m hm => ?_
  simp only [List.mem_cons, List.not_mem_nil, or_false] at hm
  rcases hm with rfl | rfl
  · exact .atom rfl
  · exact hcounts

/-- The order may be sent as text, and it may come back as bytes. -/
theorem record_eq_of_bodyForm_cafeOrder :
    cafeOrder.IsJson ∧ Json.IsWhole cafeOrder ∧ cafeOrder.isNull = false ∧
      (∀ s, cafeOrder ≠ .text s) ∧
      announcesJson cafeExchange.request.contentType? = true ∧
      announcesJson cafeExchange.reply.contentType? = true ∧
      ∃ next, ({} : Document).record cafeExchange = .ok (⟨"/orders", .post, "201"⟩, next) ∧
        ({} : Document).record
            { cafeExchange with
              request := { cafeExchange.request with body := .text (Json.text .line cafeOrder) } }
          = .ok (⟨"/orders", .post, "201"⟩, next) ∧
        ({} : Document).record
            { cafeExchange with
              reply :=
                { cafeExchange.reply with
                  body := .atom (.bytes (Utf8.encode (Json.write .line cafeOrder))) } }
          = .ok (⟨"/orders", .post, "201"⟩, next) := by
  have hjson : cafeOrder.IsJson := by
    simp [cafeOrder, Value.object, Value.IsJson, jsonMembers, jsonItems, Atom.IsJson, Members.keys]
  have htext : ∀ s, cafeOrder ≠ .text s := fun s h => by cases h
  have hrequest : announcesJson cafeExchange.request.contentType? = true := by decide
  have hreply : announcesJson cafeExchange.reply.contentType? = true := by decide
  obtain ⟨next, hnext⟩ : ∃ next,
      ({} : Document).record cafeExchange = .ok (⟨"/orders", .post, "201"⟩, next) := ⟨_, rfl⟩
  refine ⟨hjson, isWhole_cafeOrder, rfl, htext, hrequest, hreply, next, hnext, ?_, ?_⟩
  · exact ((record_eq_of_bodyForm hjson isWhole_cafeOrder rfl htext .text .data {} cafeExchange).1
      hrequest).trans hnext
  · exact ((record_eq_of_bodyForm hjson isWhole_cafeOrder rfl htext .bytes .data {} cafeExchange).2
      hreply).trans hnext

end Document

end ApiScribe

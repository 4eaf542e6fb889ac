import EventBus.Analysis.HandledEvents
import EventBus.Analysis.SubjectMeaning
import EventBus.Model.DeriveEvent

/-!
# What derived events are published as

`Derives` says which structs the derive accepts and what it makes of them, and `derive_iff` that
this is what the macro does.  `derived_events_stored` follows the events of such a struct to the
stream: whatever the publishers of a stream do, its messages have the subject that the template
means, and the field `id` for their id.
-/

set_option autoImplicit false

namespace EventBus.Analysis

open EventBus.Model EventBus.Lib EventBus.Lib.FormatString EventBus.Interface

/-! ## Attributes -/

/-- The value that an item gives to a key. -/
def itemValue (key : String) : Except String NestedMeta → Option String
  | .ok ⟨path, .str value⟩ => if path = [key] then some value else none
  | _ => none

/-- The value that the last item for a key gives to it. -/
def lastValue (key : String) (items : List (Except String NestedMeta)) : Option String :=
  items.reverse.findSome? (itemValue key)

/-- An item that gives a subject or an aggregate. -/
def KnownItem (item : Except String NestedMeta) : Prop :=
  (itemValue "subject" item).isSome ∨ (itemValue "aggregate" item).isSome

/-- INTERNAL: a later value of a key counts before an earlier one. -/
theorem lastValue_cons (key : String) (item : Except String NestedMeta)
    (items : List (Except String NestedMeta)) :
    lastValue key (item :: items) = (lastValue key items).or (itemValue key item) := by
  simp only [lastValue, List.reverse_cons, List.findSome?_append, List.findSome?_singleton]

/-- INTERNAL: an item is taken or ends the derive. -/
theorem parseItems_cons_iff {item : Except String NestedMeta}
    {items : List (Except String NestedMeta)} {subject aggregate : Option String}
    {r : Option String × Option String} :
    parseItems (item :: items) subject aggregate = .ok r ↔
      KnownItem item ∧ parseItems items ((itemValue "subject" item).or subject)
        ((itemValue "aggregate" item).or aggregate) = .ok r := by
  rcases item with e | ⟨path, value⟩
  · simp [parseItems, KnownItem, itemValue]
  · by_cases hsubject : path = ["subject"]
    · cases value <;> simp [parseItems, KnownItem, itemValue, hsubject]
    · by_cases haggregate : path = ["aggregate"]
      · cases value <;> simp [parseItems, KnownItem, itemValue, haggregate]
      · cases value <;> simp [parseItems, KnownItem, itemValue, hsubject, haggregate]

/-- **An attribute is read to the end exactly if every item is known, and then the last item for
a key counts.** -/
theorem parseItems_eq_ok_iff {items : List (Except String NestedMeta)}
    {subject aggregate : Option String} {r : Option String × Option String} :
    parseItems items subject aggregate = .ok r ↔ (∀ item ∈ items, KnownItem item) ∧
      r = ((lastValue "subject" items).or subject, (lastValue "aggregate" items).or aggregate) := by
  induction items generalizing subject aggregate with
  | nil =>
    have hlast : ∀ key, lastValue key [] = none := fun key => rfl
    simp only [parseItems, Except.ok.injEq, hlast, Option.none_or]
    exact ⟨fun h => ⟨fun item hitem => absurd hitem List.not_mem_nil, h.symm⟩, fun h => h.2.symm⟩
  | cons item items ih =>
    rw [parseItems_cons_iff, ih, List.forall_mem_cons, and_assoc, lastValue_cons, lastValue_cons,
      Option.or_assoc, Option.or_assoc]

/-- INTERNAL: what the attribute must have.
SRC: event.rs:21-57 -/
theorem parseEventAttrs_eq_ok_iff {attr : Attribute} {parsed : ParsedEventAttrs} :
    parseEventAttrs attr = .ok parsed ↔ (∀ item ∈ attr.items, KnownItem item) ∧
      lastValue "subject" attr.items = some parsed.subjectTemplate ∧
      lastValue "aggregate" attr.items = parsed.aggregate := by
  have hread : ∀ {r}, parseItems attr.items none none = .ok r ↔ _ := parseItems_eq_ok_iff
  simp only [Option.or_none] at hread
  unfold parseEventAttrs
  constructor
  · intro h
    split at h
    · cases h
    · cases h
    · rename_i subjectTemplate aggregate hitems
      obtain ⟨hknown, hlast⟩ := hread.mp hitems
      obtain ⟨hsubject, haggregate⟩ := Prod.mk.inj hlast
      obtain rfl := Except.ok.inj h
      exact ⟨hknown, hsubject.symm, haggregate.symm⟩
  · rintro ⟨hknown, hsubject, haggregate⟩
    rw [hread.mpr ⟨hknown, rfl⟩, hsubject, haggregate]

/-! ## Fields -/

/-- The types that are taken for that of an id. -/
def IsMessageId (ty : FieldType) : Prop :=
  ty = .path false ["MessageId"] ∨ ∃ before, ty = .path false (before ++ ["bus_core", "MessageId"])

/-- INTERNAL: what the type of the id must be.
SRC: event.rs:137-159 -/
theorem isMessageIdField_iff {field : Field} :
    isMessageIdField field = true ↔ IsMessageId field.ty := by
  obtain ⟨ident, ty⟩ := field
  unfold isMessageIdField IsMessageId
  constructor
  · intro h
    split at h
    · cases h
    · rename_i qself segments hty
      split at h
      · cases h
      · rename_i hqself
        split at h
        · cases h
        · rename_i last before hreverse
          split at h
          · cases h
          · rename_i hlast
            have hsegments : segments = before.reverse ++ [last] := by
              rw [← List.reverse_cons, ← hreverse, List.reverse_reverse]
            obtain rfl := not_not.mp hlast
            rw [Bool.not_eq_true] at hqself
            cases before with
            | nil => exact .inl (by rw [hty, hqself, hsegments]; rfl)
            | cons crate before =>
              obtain rfl := of_decide_eq_true h
              exact .inr ⟨before.reverse, by rw [hty, hqself, hsegments]; simp⟩
  · rintro (hty | ⟨before, hty⟩)
    · obtain rfl : ty = _ := hty
      rfl
    · obtain rfl : ty = _ := hty
      simp

/-- The struct has an id: its first field of that name. -/
def HasId (fields : List Field) : Prop :=
  ∃ idField, fields.find? (fun field => decide (field.ident = "id")) = some idField ∧
    IsMessageId idField.ty

/-- INTERNAL: there must be a field `id` of it.
SRC: event.rs:59-133 -/
theorem findIdField_eq_ok_iff {fields : List Field} :
    (∃ idField, findIdField fields = .ok idField) ↔ HasId fields := by
  unfold findIdField HasId
  cases hfind : fields.find? fun field => decide (field.ident = "id") with
  | none => simp
  | some idField =>
    by_cases hty : isMessageIdField idField = true
    · simp [hty, isMessageIdField_iff.mp hty]
    · simp [hty, mt isMessageIdField_iff.mpr hty]

/-! ## The derive -/

variable {parseIdent : String → Option String}

/-- The structs that the derive accepts, and what it makes of them: the first `event` attribute
has only items that are known, the last subject among them is a template over the fields, and
there is an id. -/
inductive Derives (parseIdent : String → Option String) : DeriveInput → EventImpl → Prop
  | struct {deriveInput : DeriveInput} {attr : Attribute} {fields : List Field}
      {template : String} {ps : List (Piece String)}
      (hattr : deriveInput.attrs.find? Attribute.isEvent = some attr)
      (hitems : ∀ item ∈ attr.items, KnownItem item)
      (htemplate : lastValue "subject" attr.items = some template)
      (hdata : deriveInput.data = .named fields) (hid : HasId fields)
      (hreads : Reads parseIdent (fields.map Field.ident) template.toList ps) :
      Derives parseIdent deriveInput
        ⟨deriveInput.ident, expressionOf ps, (lastValue "aggregate" attr.items).getD "default"⟩

/-- INTERNAL: an outcome that is passed on. -/
theorem bind_eq_ok_iff {α β : Type} {x : Except String α} {f : α → Except String β} {b : β} :
    (x >>= f) = .ok b ↔ ∃ a, x = .ok a ∧ f a = .ok b := by
  cases x with
  | error e => exact iff_of_false (fun h => by cases h) (fun h => by simp at h)
  | ok a =>
    constructor
    · exact fun h => ⟨a, rfl, h⟩
    · rintro ⟨a', ha, h⟩
      obtain rfl := Except.ok.inj ha
      exact h

/-- INTERNAL: the first attribute `event` counts.
SRC: event.rs:59-133 -/
theorem findEventAttribute_eq_ok_iff {attrs : List Attribute} {attr : Attribute} :
    findEventAttribute attrs = .ok attr ↔ attrs.find? Attribute.isEvent = some attr := by
  unfold findEventAttribute
  cases attrs.find? Attribute.isEvent <;> simp

/-- INTERNAL: only a struct with named fields is accepted.
SRC: event.rs:59-133 -/
theorem namedFields_eq_ok_iff {data : DeriveData} {fields : List Field} :
    data.namedFields = .ok fields ↔ data = .named fields := by
  cases data <;> simp [DeriveData.namedFields]

/-- **The derive accepts these structs and no others.** -/
theorem derive_iff {deriveInput : DeriveInput} {impl : EventImpl} :
    generateEventImpl parseIdent deriveInput = .ok impl ↔ Derives parseIdent deriveInput impl := by
  unfold generateEventImpl
  simp only [bind_eq_ok_iff, findEventAttribute_eq_ok_iff, parseEventAttrs_eq_ok_iff,
    namedFields_eq_ok_iff, buildSubjectExpression_eq_ok_iff]
  constructor
  · rintro ⟨attr, hattr, ⟨template, aggregate⟩, ⟨hitems, htemplate, haggregate⟩, fields, hdata,
      idField, hid, expression, ⟨ps, hreads, rfl⟩, himpl⟩
    obtain rfl := Except.ok.inj himpl
    rw [← haggregate]
    exact .struct hattr hitems htemplate hdata (findIdField_eq_ok_iff.mp ⟨idField, hid⟩) hreads
  · rintro ⟨hattr, hitems, htemplate, hdata, hid, hreads⟩
    obtain ⟨idField, hid⟩ := findIdField_eq_ok_iff.mpr hid
    exact ⟨_, hattr, ⟨_, _⟩, ⟨hitems, htemplate, rfl⟩, _, hdata, idField, hid, _,
      ⟨_, hreads, rfl⟩, rfl⟩

/-! ## Derived events on their way -/

section

variable {U : Type} [UuidCrate U]

/-- INTERNAL: the subject of an event whose template means what it says. -/
theorem subject_eventTrait {impl : EventImpl} {ps : List (Piece String)}
    (himpl : impl.subjectExpression = expressionOf ps) (hopen : Piece.char '{' ∉ ps)
    (hclear : holes ps = [] ∨ Piece.char '}' ∉ ps) (toVec : EventValue U → Except String Bytes)
    (v : EventValue U) : (impl.eventTrait toVec).subject v = meaning v.display ps := by
  show (impl.subjectExpression.eval v.display).getD "" = _
  rw [himpl, (eval_expressionOf_iff hopen v.display).mpr hclear, Option.getD_some]

/-- The handler is called as one of the values was published: it is told the id of the value and
the subject that the template means for it, and its event is read from what the value was written
as. -/
def AsDerived (ps : List (Piece String)) (toVec : EventValue U → Except String Bytes)
    (fromSlice : Bytes → Except String (EventValue U)) (asked : List (EventValue U))
    (ctx : HandlerCtx U) (event : EventValue U) : Prop :=
  ∃ v ∈ asked, ctx.msgId = v.id ∧ ctx.subject = meaning v.display ps ∧
    ∃ payload, toVec v = .ok payload ∧ fromSlice payload = .ok event

/-- The template of the struct, as it reads over the fields. -/
def TemplateReads (parseIdent : String → Option String) (deriveInput : DeriveInput)
    (ps : List (Piece String)) : Prop :=
  ∃ attr template fields, deriveInput.attrs.find? Attribute.isEvent = some attr ∧
    lastValue "subject" attr.items = some template ∧ deriveInput.data = .named fields ∧
    Reads parseIdent (fields.map Field.ident) template.toList ps

/-- INTERNAL: a template is read in one way only. -/
theorem TemplateReads.unique {deriveInput : DeriveInput} {ps ps' : List (Piece String)}
    (h : TemplateReads parseIdent deriveInput ps) (h' : TemplateReads parseIdent deriveInput ps') :
    ps = ps' := by
  obtain ⟨attr, template, fields, hattr, htemplate, hdata, hreads⟩ := h
  obtain ⟨attr', template', fields', hattr', htemplate', hdata', hreads'⟩ := h'
  obtain rfl := Option.some.inj (hattr.symm.trans hattr')
  obtain rfl := Option.some.inj (htemplate.symm.trans htemplate')
  obtain rfl := DeriveData.named.inj (hdata.symm.trans hdata')
  exact hreads.unique hreads'

/-- INTERNAL: what the derive makes of a template. -/
theorem TemplateReads.impl {deriveInput : DeriveInput} {impl : EventImpl} {ps : List (Piece String)}
    (h : TemplateReads parseIdent deriveInput ps)
    (hderive : generateEventImpl parseIdent deriveInput = .ok impl) :
    impl.subjectExpression = expressionOf ps ∧ Piece.char '{' ∉ ps := by
  obtain ⟨hattr, -, htemplate, hdata, -, hreads⟩ := derive_iff.mp hderive
  obtain rfl := h.unique ⟨_, _, _, hattr, htemplate, hdata, hreads⟩
  exact ⟨rfl, hreads.char_notMem⟩

/-- **From the derive to the handler.**  Take any struct that the derive accepts, whose template
has no placeholder, or no closing brace beside its placeholders.  In every run of any publishers
of such events and any subscriptions, handlers are called with the field `id` for an id and what
the template means for a subject.
SRC: event.rs:21-223, publisher.rs:26-50, subscriber.rs:359-447 -/
theorem derived_events_handled {deriveInput : DeriveInput} {impl : EventImpl}
    {ps : List (Piece String)} (hderive : generateEventImpl parseIdent deriveInput = .ok impl)
    (htemplate : TemplateReads parseIdent deriveInput ps)
    (hclear : holes ps = [] ∨ Piece.char '}' ∉ ps)
    (hround : ∀ u : U, UuidCrate.parseStr (UuidCrate.toStr u) = some u)
    (toVec : EventValue U → Except String Bytes) (Γ : Deployment U (EventValue U))
    [DecidableEq Γ.Sub] (number : Γ.Sub × ℕ ↪ ℕ) (opts : Γ.Sub → SubscribeOptions)
    (stream : EventStream) (hempty : stream.messages = []) (tasks : Γ.Sub → LoopState)
    (sh : Shared Γ) (gs : List (FlowAction Γ)) :
    Always (flowStep (impl.eventTrait toVec) opts number (codeMachine Γ))
      (fun x => ∀ i d ctx event,
        (look (codeMachine Γ) x.2.2).awaits i = some (d, .handle ctx event) →
          AsDerived ps toVec (Γ.fromSlice d.sub) x.1.shared.asked ctx event)
      (fresh (allPublishers (impl.eventTrait toVec)) ⟨stream, []⟩, tasks,
        fresh (codeMachine Γ) sh) gs := by
  obtain ⟨himpl, hopen⟩ := htemplate.impl hderive
  refine (flows_always _ number opts stream hempty tasks sh gs).mono fun x hx i d ctx event hi => ?_
  obtain ⟨v, hv, m, hm, hof, -, hctx, hsubject, -, hevent⟩ := hx.asPublished hround hi
  refine ⟨v, hv, hctx, ?_, m.payload, hof.2.2, hevent⟩
  rw [hsubject]
  exact subject_eventTrait himpl hopen hclear toVec v

end

/-! ## A struct -/

/-- `#[event(subject = "events.order.{self.status}", aggregate = "order")]` on a struct with an
id and a status. -/
def orderStruct : DeriveInput where
  ident := "OrderChanged"
  attrs := [⟨["serde"], []⟩, ⟨["event"],
    [.ok ⟨["subject"], .str "events.order.\x7bself.status\x7d"⟩,
      .ok ⟨["aggregate"], .str "order"⟩]⟩]
  data := .named [⟨"id", .path false ["bus_core", "MessageId"]⟩, ⟨"status", .path false ["String"]⟩]

def orderImpl : EventImpl where
  typeName := "OrderChanged"
  subjectExpression := .format "events.order.\x7b\x7d" ["status"]
  aggregateType := "order"

/-- INTERNAL: the implementation for the struct of an order. -/
theorem generate_orderStruct : generateEventImpl plainIdent orderStruct = .ok orderImpl := by
  decide +kernel

def orderTemplate : List (Piece String) :=
  "events.order.".toList.map .char ++ [.hole "status"]

/-- INTERNAL: how the template of an order is read. -/
theorem orderTemplate_reads : TemplateReads plainIdent orderStruct orderTemplate := by
  have hfield : NamesField plainIdent ["id", "status"] "self.status".toList "status" :=
    ⟨"status".toList, by decide +kernel, by decide +kernel, by decide⟩
  have htext : '{' ∉ "events.order.".toList := by decide
  have hreads := Reads.append_char htext (.hole (by decide) hfield .nil)
  exact ⟨_, _, _, rfl, rfl, rfl, hreads⟩

/-- An order that has been created. -/
def createdOrder : EventValue HyphenatedUuid where
  id := ⟨firstId⟩
  display field := if field = "id" then firstId.val else "created"
  display_id := rfl

/-- Subscriptions to orders. -/
def orders : Deployment HyphenatedUuid (EventValue HyphenatedUuid) :=
  .ofSubscriptions pairOptions (fun _ _ => .ok createdOrder)
    (RedisIdempotencyStore.connect {}).store fun _ => defaultDlqDuplicateWindow.asMillis

instance : DecidableEq orders.Sub := inferInstanceAs (DecidableEq Bool)

/-- The order is published, and a subscription comes to its handler with it. -/
def createdOrderRun : List (FlowAction orders) :=
  [.publish (.spawn 0 (.one createdOrder)), .publish (.serve 0 ()),
    .bus (.task false (.answered true)), .bus (.task false .look),
    .bus (.task false (.item .message)), .bus (.task false .acquire),
    .bus (.spawn false 0 (pairMessage 0 "0190a6e4-0000-7000-8000-000000000001")),
    .bus (.work (.serve 0 ⟨(), .ok ()⟩)), .bus (.work (.resume 0))]

/-- INTERNAL: the result on an order that is created and handled. -/
theorem derived_events_handled_createdOrder :
    ∃ x d ctx, run (flowStep (orderImpl.eventTrait fun _ => .ok [123, 125]) pairOptions pairNumber
          (codeMachine orders))
        (fresh (allPublishers _) ⟨emptyStream, []⟩, pairTasks,
          fresh (codeMachine orders) (.initial 0 (fun _ => none) [])) createdOrderRun = some x ∧
      (look (codeMachine orders) x.2.2).awaits 0 = some (d, .handle ctx createdOrder) ∧
      AsDerived orderTemplate (fun _ => .ok [123, 125]) (orders.fromSlice d.sub)
        x.1.shared.asked ctx createdOrder := by
  have hend : ∃ x d ctx, run (flowStep (orderImpl.eventTrait fun _ => .ok [123, 125]) pairOptions
          pairNumber (codeMachine orders))
        (fresh (allPublishers _) ⟨emptyStream, []⟩, pairTasks,
          fresh (codeMachine orders) (.initial 0 (fun _ => none) [])) createdOrderRun = some x ∧
      (look (codeMachine orders) x.2.2).awaits 0 = some (d, .handle ctx createdOrder) :=
    ⟨_, _, _, rfl, rfl⟩
  obtain ⟨x, d, ctx, hrun, hi⟩ := hend
  have hclear : holes orderTemplate = [] ∨ Piece.char '}' ∉ orderTemplate := .inr (by decide)
  have hall := derived_events_handled generate_orderStruct orderTemplate_reads hclear parseStr_toStr
    (fun _ => .ok [123, 125]) orders pairNumber pairOptions emptyStream rfl pairTasks
    (.initial 0 (fun _ => none) []) createdOrderRun
  exact ⟨x, d, ctx, hrun, hi, hall.last hrun 0 d ctx _ hi⟩

end EventBus.Analysis

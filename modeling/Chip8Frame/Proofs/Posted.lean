import Chip8Frame.Proofs.Messages
import Chip8Frame.Proofs.RestartSize

/-! Boot messages that reach the frame of a browser. A script object is read as the JSON object it
came from; what can be read becomes a command, and what cannot is reported and nothing else. -/

namespace Chip8Frame.Browser

open Boot (Parameters)
open Boot.Parameters (keys visit Conveys Loosens)

namespace Value

mutual

def ofJson : Json → Value
  | .null => null
  | .bool b => bool b
  | .integer n => number (Binary64.ofInt n)
  | .float x => number x
  | .string s => string s
  | .array items => array (ofItems items)
  | .object ms => object (ofMembers ms)

def ofItems : List Json → List Value
  | [] => []
  | v :: vs => ofJson v :: ofItems vs

def ofMembers : List (String × Json) → List (String × Value)
  | [] => []
  | (name, v) :: ms => (name, ofJson v) :: ofMembers ms

end

def ofText? : Option String → Value
  | some s => string s
  | none => undefined

def ofParameters (p : Parameters) : Value :=
  .object [(Parameters.backgroundKey, ofText? p.background),
    (Parameters.foregroundKey, ofText? p.foreground),
    (Parameters.programKey, ofText? p.program), (Parameters.speedKey, ofText? p.speed)]

def Garbled (ms : List (String × Value)) : Prop :=
  ∃ name ∈ keys, ∃ v, ms.lookup name = some v ∧ v.isNullish = false ∧ ∀ s, v ≠ string s

section Reading

variable {p : Parameters} {ms : List (String × Value)} {js : List (String × Json)}
  {t : Option String} {v : Json}

theorem text?_ofText? (t : Option String) : (ofText? t).text? = .ok t := by
  cases t <;> rfl

theorem text?_ofJson_eq_ok : (ofJson v).text? = .ok t ↔ Decode.string? v = .ok t := by
  cases v <;> cases t <;>
    simp [ofJson, text?, text, isNullish, Decode.string?, Decode.string, Except.map]

theorem lookup_ofMembers (js : List (String × Json)) (name : String) :
    (ofMembers js).lookup name = (js.lookup name).map ofJson := by
  induction js with
  | nil => rfl
  | cons m js ih =>
    obtain ⟨n, v⟩ := m
    rw [ofMembers, lookup_cons_ite, lookup_cons_ite, ih]
    split_ifs <;> rfl

/-- The members that a message is read from, in the order in which they are looked up. -/
def known (ms : List (String × Value)) : List (String × Value) :=
  keys.filterMap fun name => (ms.lookup name).map (Prod.mk name)

theorem mem_known {m : String × Value} :
    m ∈ known ms ↔ m.1 ∈ keys ∧ ms.lookup m.1 = some m.2 := by
  obtain ⟨n, v⟩ := m
  simp only [known, List.mem_filterMap, Option.map_eq_some_iff, Prod.mk.injEq]
  constructor
  · rintro ⟨name, hname, w, hw, rfl, rfl⟩
    exact ⟨hname, hw⟩
  · rintro ⟨hn, hv⟩
    exact ⟨n, hn, v, hv, rfl, rfl⟩

theorem nodup_known (ms : List (String × Value)) : ((known ms).map Prod.fst).Nodup := by
  have hnames : (known ms).map Prod.fst = keys.filter fun name => (ms.lookup name).isSome := by
    rw [known, List.map_filterMap, ← List.filterMap_eq_filter]
    congr 1
    funext name
    cases h : ms.lookup name <;> simp [h, Option.guard]
  rw [hnames]
  exact Boot.Parameters.keys_nodup.filter _

theorem lookup_known {name : String} (h : name ∈ keys) :
    (known ms).lookup name = ms.lookup name := by
  refine Option.ext fun v => ?_
  rw [lookup_eq_some_iff_mem (nodup_known ms), mem_known]
  exact and_iff_right h

theorem parameters_object (ms : List (String × Value)) :
    (object ms).parameters = (known ms).foldlM (visit text?) Parameters.absent := by
  rw [Boot.Parameters.foldlM_visit_of_known fun m hm => (mem_known.mp hm).1, known,
    List.foldlM_filterMap]
  simp only [parameters, record, isObject, if_true, member?, bind_pure_comp]
  change List.foldlM _ _ (keys.map fun name => (name, fun (v : Value) (q : Parameters) =>
    v.text?.map (q.withText name))) = _
  rw [List.foldlM_map]
  congr 1
  funext q name
  cases ms.lookup name <;> rfl

theorem parameters_object_eq_ok_iff : (object ms).parameters = .ok p ↔
    ∀ name ∈ keys, (ms.lookup name).elim (.ok none) text? = .ok (p.text name) := by
  rw [parameters_object, Boot.Parameters.foldlM_visit (nodup_known ms)]
  refine forall₂_congr fun name hname => ?_
  rw [lookup_known hname, Boot.Parameters.text_absent]

theorem parameters_ofParameters (p : Parameters) : (ofParameters p).parameters = .ok p := by
  refine parameters_object_eq_ok_iff.mpr (Boot.Parameters.forall_mem_keys.mpr ?_)
  exact ⟨text?_ofText? _, text?_ofText? _, text?_ofText? _, text?_ofText? _⟩

theorem parameters_ofJson_eq_ok_iff (h : (js.map Prod.fst).Nodup) :
    (ofJson (.object js)).parameters = .ok p ↔ Parameters.ofJson (.object js) = .ok p := by
  rw [ofJson, parameters_object_eq_ok_iff, Boot.Parameters.ofJson_object,
    Boot.Parameters.foldlM_visit h]
  refine forall₂_congr fun name _ => ?_
  rw [lookup_ofMembers, Boot.Parameters.text_absent]
  cases js.lookup name with
  | none => exact Iff.rfl
  | some v => exact text?_ofJson_eq_ok

theorem text?_eq_error {v : Value} :
    (∃ e, v.text? = .error e) ↔ v.isNullish = false ∧ ∀ s, v ≠ string s := by
  cases v <;> simp [text?, text, isNullish, Except.map]

theorem parameters_object_eq_error_iff :
    (∃ e, (object ms).parameters = .error e) ↔ Garbled ms := by
  rw [parameters_object, Boot.Parameters.foldlM_visit_error]
  simp only [text?_eq_error, Garbled]
  constructor
  · rintro ⟨m, hm, hk, hbad⟩
    exact ⟨m.1, hk, m.2, (mem_known.mp hm).2, hbad⟩
  · rintro ⟨name, hk, v, hv, hbad⟩
    exact ⟨(name, v), mem_known.mpr ⟨hk, hv⟩, hk, hbad⟩

theorem garbled_ofMembers (h : (js.map Prod.fst).Nodup) (hjs : Parameters.Garbled js) :
    Garbled (ofMembers js) := by
  obtain ⟨e, he⟩ := Boot.Parameters.ofJson_object_eq_error_iff.mpr hjs
  refine parameters_object_eq_error_iff.mp ?_
  cases hp : (object (ofMembers js)).parameters with
  | error e => exact ⟨e, rfl⟩
  | ok p =>
    rw [(parameters_ofJson_eq_ok_iff h).mp hp] at he
    cases he

end Reading

end Value

namespace Frame

def bootTask (f : Frame) (p : Parameters) : Task := .command (.message p) (windowWidth f.realm)

def bootListeners (f : Frame) : Nat :=
  (f.realm.listenersFor .window "message").countP fun l =>
    f.realm.handler? l.closure = some .bootMessage

section Messages

variable {f : Frame} {data : Value} {p : Parameters} {e : Decode.Error}

theorem receive_of_ok (h : data.parameters = .ok p) :
    f.receive data = { f with tasks := f.tasks ++ [f.bootTask p] } := by
  simp only [receive, h]
  rfl

theorem receive_of_error (h : data.parameters = .error e) :
    ∃ events, f.receive data = { f with realm := { f.realm with events } } := by
  obtain ⟨events, hr⟩ := f.realm.report_eq (.malformedMessage (Value.decodeErrorText e))
  refine ⟨events, ?_⟩
  simp only [receive, h, report, hr]

theorem receive_handler? (f : Frame) (data : Value) (n : Nat) :
    (f.receive data).realm.handler? n = f.realm.handler? n := by
  cases h : data.parameters with
  | ok p => rw [receive_of_ok h]
  | error e =>
    obtain ⟨events, hr⟩ := receive_of_error h
    rw [hr]
    rfl

/-- The other listeners leave a message alone. -/
theorem fireMessage_eq (f : Frame) (data : Value) :
    (f.fireMessage data).2 = (fun g : Frame => g.receive data)^[f.bootListeners] f := by
  simp only [fireMessage, fire, bootListeners]
  generalize f.realm.listenersFor .window "message" = ls
  induction ls generalizing f with
  | nil => rfl
  | cons l ls ih =>
    rw [List.foldl_cons, List.countP_cons]
    cases hl : f.realm.handler? l.closure with
    | none => exact ih f
    | some h =>
      by_cases hm : h = .bootMessage
      · simp only [hm, if_true]
        rw [ih]
        simp only [receive_handler?, decide_true, if_true, Function.iterate_succ_apply]
      · simp only [hm, if_false, Option.some.injEq, decide_false]
        exact ih f

theorem fireMessage_of_ok (h : data.parameters = .ok p) : (f.fireMessage data).2 =
    { f with tasks := f.tasks ++ List.replicate f.bootListeners (f.bootTask p) } := by
  rw [fireMessage_eq]
  induction f.bootListeners with
  | zero => simp
  | succ n ih =>
    rw [Function.iterate_succ_apply', ih, receive_of_ok h, List.replicate_succ', List.append_assoc]
    rfl

theorem fireMessage_of_error (h : data.parameters = .error e) :
    ∃ events, (f.fireMessage data).2 = { f with realm := { f.realm with events } } := by
  rw [fireMessage_eq]
  induction f.bootListeners with
  | zero => exact ⟨f.realm.events, rfl⟩
  | succ n ih =>
    obtain ⟨events, ih⟩ := ih
    rw [Function.iterate_succ_apply', ih]
    obtain ⟨later, hr⟩ := receive_of_error h (f := { f with realm := { f.realm with events } })
    exact ⟨later, hr⟩

end Messages

end Frame

/-- What boot messages are worth on the wire, as JSON and as the data of a posted message. -/
structure MessageLaw : Prop where
  encoding : ∀ p : Parameters, ∃ ns, p.toJson = .object ns ∧
    ns.Perm (keys.map fun name => (name, Json.ofOption .string (p.text name)))
  decoded : ∀ p : Parameters, Parameters.ofJson p.toJson = .ok p
  loosened : ∀ {p : Parameters} {ns ms}, p.toJson = .object ns → (ms.map Prod.fst).Nodup →
    (Parameters.ofJson (.object ms) = .ok p ↔ Loosens ns ms)
  listed : ∀ {p items}, Parameters.ofJson (.array items) = .ok p ↔
    ∃ k, items ++ List.replicate k .null = p.values
  conveyed : ∀ {p ms}, (ms.map Prod.fst).Nodup →
    (Parameters.ofJson (.object ms) = .ok p ↔ Conveys ms p)
  refused : ∀ {ms}, (∃ e, Parameters.ofJson (.object ms) = .error e) ↔ Parameters.Garbled ms
  posted : ∀ p, (Value.ofParameters p).parameters = .ok p
  scripted : ∀ {p ms}, (ms.map Prod.fst).Nodup →
    ((Value.ofJson (.object ms)).parameters = .ok p ↔ Parameters.ofJson (.object ms) = .ok p)
  scriptRefused : ∀ {ms}, (∃ e, (Value.object ms).parameters = .error e) ↔ Value.Garbled ms
  heard : ∀ (f : Frame) {p data}, data.parameters = .ok p → (f.fireMessage data).2 =
    { f with tasks := f.tasks ++ List.replicate f.bootListeners (f.bootTask p) }
  /-- All that shows of a refused object is a report. -/
  unheard : ∀ (f : Frame) {ms}, Value.Garbled ms →
    ∃ events, (f.fireMessage (.object ms)).2 = { f with realm := { f.realm with events } }
  ignored : ∀ (f : Frame) {ms}, (ms.map Prod.fst).Nodup → Parameters.Garbled ms →
    ∃ events, (f.fireMessage (.ofJson (.object ms))).2 = { f with realm := { f.realm with events } }

theorem unheard_of_garbled (f : Frame) {ms : List (String × Value)} (h : Value.Garbled ms) :
    ∃ events, (f.fireMessage (.object ms)).2 = { f with realm := { f.realm with events } } := by
  obtain ⟨e, he⟩ := Value.parameters_object_eq_error_iff.mpr h
  exact Frame.fireMessage_of_error he

theorem message_law : MessageLaw where
  encoding := Boot.Parameters.toJson_perm
  decoded := Boot.Parameters.ofJson_toJson
  loosened := Boot.Parameters.ofJson_object_eq_ok_iff_loosens
  listed := Boot.Parameters.ofJson_array_eq_ok_iff
  conveyed := Boot.Parameters.ofJson_object_eq_ok_iff
  refused := Boot.Parameters.ofJson_object_eq_error_iff
  posted := Value.parameters_ofParameters
  scripted := Value.parameters_ofJson_eq_ok_iff
  scriptRefused := Value.parameters_object_eq_error_iff
  heard _ := Frame.fireMessage_of_ok
  unheard := unheard_of_garbled
  ignored f _ hms h := unheard_of_garbled f (Value.garbled_ofMembers hms h)

/-- Two nulls of the encoding are missing, and a name that no message has was added. -/
def Sample.loose : List (String × Json) :=
  [("fgColour", .string "1"), ("programName", .string "PONG"), ("volume", .integer 11)]

def Sample.partly : Parameters :=
  { program := some "PONG", speed := none, foreground := some "1", background := none }

theorem Sample.partly_encoded : Sample.partly.toJson = .object [("bgColour", .null),
    ("fgColour", .string "1"), ("programName", .string "PONG"), ("speed", .null)] := rfl

def Sample.numeric : List (String × Json) :=
  [("programName", .string "PONG"), ("speed", .integer 10)]

def Sample.listening : Frame := .after Frame.Sample.framed [.listen .undefined]

theorem message_law_of_partly :
    (Parameters.ofJson (.object Sample.loose) = .ok Sample.partly ∧
      Parameters.ofJson (.array [.string "PONG", .null, .string "1"]) = .ok Sample.partly ∧
      (Value.ofJson (.object Sample.loose)).parameters = .ok Sample.partly) ∧
    (Sample.listening.bootListeners = 1 ∧ Sample.listening.tasks = []) ∧
      (Sample.listening.fireMessage (.ofJson (.object Sample.loose))).2.tasks =
        [Sample.listening.bootTask Sample.partly] ∧
      (Sample.listening.fireMessage (.ofJson (.object Sample.numeric))).2.tasks = [] := by
  have hnames : (Sample.loose.map Prod.fst).Nodup := by decide
  have hnew : "volume" ∉ keys := by decide
  have hloose := (message_law.loosened Sample.partly_encoded hnames).mpr
    ⟨by simp [Sample.loose], by simp [Sample.loose, hnew]⟩
  have hscript := (message_law.scripted hnames).mpr hloose
  have hone : Sample.listening.bootListeners = 1 := by decide +kernel
  have hnone : Sample.listening.tasks = [] := rfl
  have hgarbled : Parameters.Garbled Sample.numeric :=
    ⟨("speed", .integer 10), by simp [Sample.numeric], by decide, nofun, nofun⟩
  obtain ⟨events, hignored⟩ := message_law.ignored Sample.listening (by decide) hgarbled
  refine ⟨⟨hloose, message_law.listed.mpr ⟨1, rfl⟩, hscript⟩, ⟨hone, hnone⟩, ?_, ?_⟩
  · rw [message_law.heard Sample.listening hscript, hone, hnone]
    rfl
  · rw [hignored]
    exact hnone

end Chip8Frame.Browser

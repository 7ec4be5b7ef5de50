import StyleEngine.Service.Host

/-!
# Texts that can be written

What is asked of a server is that it writes texts: a record of texts is delivered as it is, unless
there is a surrogate in one of them, which has no encoding.  The standard server does so.

    (host settings).Writes                                                        (host_writes)
-/

namespace StyleEngine.Service

open Text

/-! ## Servers that write -/

/-- No name and no text has a surrogate. -/
def Encodable (entries : Fields String) : Prop :=
  ∀ e ∈ entries, hasSurrogate e.1 = false ∧ hasSurrogate e.2 = false

instance (entries : Fields String) : Decidable (Encodable entries) :=
  List.decidableBAll
    (fun e : String × String => hasSurrogate e.1 = false ∧ hasSurrogate e.2 = false) entries

/-- A server that writes what can be encoded, and nothing else: a record of a failure, and one that
stands under a name in a success. -/
structure Server.Writes (server : Server) : Prop where
  record : ∀ status entries, 400 ≤ status → Encodable entries →
    server.deliver (.reply status (record entries)) = .reply status (record entries)
  nested : ∀ name entries, hasSurrogate name = false → Encodable entries →
    server.deliver (.reply success (.map [(name, Service.record entries)])) =
      .reply success (.map [(name, Service.record entries)])
  surrogate : ∀ name entries, ¬Encodable entries →
    ∃ text, server.deliver (.reply success (.map [(name, Service.record entries)])) =
      internalError text

/-! ## Flaws of texts -/

theorem surrogateRunFrom?_eq_none_iff {position : Nat} {cs : List Code} :
    surrogateRunFrom? position cs = none ↔ cs.any Code.isSurrogate = false := by
  induction cs generalizing position with
  | nil => exact iff_of_true rfl rfl
  | cons c cs ih =>
    unfold surrogateRunFrom?
    cases hc : c.isSurrogate with
    | true => simp [hc]
    | false => simpa [hc] using ih

theorem codesFlaw?_eq_none_iff {cs : List Code} :
    codesFlaw? cs = none ↔ cs.any Code.isSurrogate = false := by
  unfold codesFlaw? surrogateRun?
  rw [Option.map_eq_none_iff, surrogateRunFrom?_eq_none_iff]

theorem textFlaw?_eq_none_iff {s : String} : textFlaw? s = none ↔ hasSurrogate s = false :=
  codesFlaw?_eq_none_iff

/-! ## Records in replies -/

variable {entries : Fields String}

theorem entriesFlaw?_texts_eq_none_iff {room : Nat} (h : room ≠ 0) :
    entriesFlaw? room (entries.map fun e => (e.1, .text e.2)) = none ↔ Encodable entries := by
  have htext : ∀ s : String, valueFlaw? room (.text s) = textFlaw? s := by
    intro s
    unfold valueFlaw?
    rw [if_neg h]
  unfold Encodable
  induction entries with
  | nil => exact iff_of_true rfl fun e he => absurd he List.not_mem_nil
  | cons e entries ih =>
    rw [List.map_cons, List.forall_mem_cons, ← textFlaw?_eq_none_iff, ← textFlaw?_eq_none_iff,
      ← htext e.2]
    refine Iff.trans ?_ (and_congr_right fun _ => ih)
    conv => lhs; unfold entriesFlaw?
    cases textFlaw? e.1 with
    | some flaw => simp
    | none => cases valueFlaw? room (.text e.2) <;> simp

theorem replyFlaw?_record_eq_none_iff : replyFlaw? (record entries) = none ↔ Encodable entries :=
  entriesFlaw?_texts_eq_none_iff (by decide)

theorem replyFlaw?_nested_eq_none_iff (name : String) :
    replyFlaw? (.map [(name, record entries)]) = none ↔
      hasSurrogate name = false ∧ Encodable entries := by
  have hinner : valueFlaw? maxDepth (record entries) =
      entriesFlaw? (maxDepth - 1) (entries.map fun e => (e.1, .text e.2)) := by
    unfold record valueFlaw?
    rw [if_neg (by decide)]
  have hroom : maxDepth - 1 ≠ 0 := by decide
  rw [← entriesFlaw?_texts_eq_none_iff hroom, ← hinner, ← textFlaw?_eq_none_iff, replyFlaw?]
  conv => lhs; unfold entriesFlaw?
  cases textFlaw? name with
  | some flaw => simp
  | none => cases valueFlaw? maxDepth (record entries) <;> simp [entriesFlaw?]

theorem contentEntries_texts (entries : Fields String) :
    contentEntries (entries.map fun e => (e.1, .text e.2)) =
      entries.map fun e => (e.1, .text e.2) := by
  induction entries with
  | nil => rfl
  | cons e entries ih =>
    have htext : content (.text e.2) = .text e.2 := rfl
    rw [List.map_cons, contentEntries, ih, htext]

theorem content_record (entries : Fields String) : content (record entries) = record entries :=
  congrArg Value.map (contentEntries_texts entries)

/-! ## Records as JSON -/

theorem isSurrogate_char (c : Char) : (Code.char c).isSurrogate = false := rfl

theorem any_chars (s : String) : (Json.chars s).any Code.isSurrogate = false := by
  simp [Json.chars, isSurrogate_char]

theorem any_escape {c : Code} (h : c.isSurrogate = false) :
    (Json.escape c).any Code.isSurrogate = false := by
  unfold Json.escape
  repeat' split
  all_goals simp [h, any_chars, isSurrogate_char]

theorem any_writeText {s : String} (h : hasSurrogate s = false) :
    (Json.writeText s).any Code.isSurrogate = false := by
  have hescaped : ((codes s).flatMap Json.escape).any Code.isSurrogate = false := by
    rw [List.any_flatMap, List.any_eq_false]
    intro c hc
    rw [any_escape (Bool.not_eq_true _ ▸ List.any_eq_false.1 h c hc)]
    exact Bool.false_ne_true
  simp [Json.writeText, any_chars, hescaped]

theorem any_writeEntries (h : Encodable entries) :
    (Json.writeEntries (entries.map fun e => (e.1, .text e.2))).any Code.isSurrogate = false := by
  induction entries with
  | nil => rfl
  | cons e entries ih =>
    obtain ⟨⟨hname, htext⟩, hrest⟩ := List.forall_mem_cons.1 h
    have hwritten : (Json.write (.text e.2)).any Code.isSurrogate = false := any_writeText htext
    cases entries with
    | nil => simp [Json.writeEntries, any_writeText hname, any_chars, hwritten]
    | cons e' entries =>
      have ih := ih hrest
      rw [List.map_cons] at ih
      simp [Json.writeEntries, any_writeText hname, any_chars, hwritten, ih]

theorem hasNonFinite_record (entries : Fields String) :
    Json.hasNonFinite (record entries) = false := by
  show Json.anyEntryNonFinite (entries.map fun e => (e.1, .text e.2)) = false
  induction entries with
  | nil => rfl
  | cons e entries ih =>
    rw [List.map_cons, Json.anyEntryNonFinite, ih]
    rfl

theorem jsonFlaw?_record (h : Encodable entries) : jsonFlaw? (record entries) = none := by
  have hwritten : (Json.write (record entries)).any Code.isSurrogate = false := by
    simp [record, Json.write, any_chars, any_writeEntries h]
  unfold jsonFlaw?
  rw [hasNonFinite_record, if_neg Bool.false_ne_true, codesFlaw?_eq_none_iff, hwritten]

/-! ## The standard server -/

theorem deliver_record (status : Nat) (h : Encodable entries) :
    Answer.deliver (.reply status (record entries)) = .reply status (record entries) := by
  by_cases hs : status = success
  · have hflaw := replyFlaw?_record_eq_none_iff.2 h
    simp only [Answer.deliver, Answer.flaw?, Answer.written, if_pos hs, hflaw, Option.map_none,
      content_record]
  · simp only [Answer.deliver, Answer.flaw?, Answer.written, if_neg hs, jsonFlaw?_record h,
      Option.map_none]

theorem deliver_nested {name : String} (hname : hasSurrogate name = false) (h : Encodable entries) :
    Answer.deliver (.reply success (.map [(name, record entries)])) =
      .reply success (.map [(name, record entries)]) := by
  have hflaw := (replyFlaw?_nested_eq_none_iff name).2 ⟨hname, h⟩
  have hcontent : content (.map [(name, record entries)]) = .map [(name, record entries)] := by
    rw [content, contentEntries, contentEntries, content_record]
  simp only [Answer.deliver, Answer.flaw?, Answer.written, if_true, hflaw, Option.map_none,
    hcontent]

theorem deliver_surrogate (name : String) (h : ¬Encodable entries) :
    ∃ text, Answer.deliver (.reply success (.map [(name, record entries)])) =
      internalError text := by
  obtain ⟨flaw, hflaw⟩ := Option.ne_none_iff_exists'.1 fun hnone =>
    h ((replyFlaw?_nested_eq_none_iff name).1 hnone).2
  exact ⟨replyFlawMessage flaw, by
    simp only [Answer.deliver, Answer.flaw?, if_true, hflaw, Option.map_some]⟩

theorem host_writes (settings : Settings) : (host settings).Writes where
  record := fun status _ _ h => by rw [host_deliver, deliver_record status h]
  nested := fun _ _ hname h => by rw [host_deliver, deliver_nested hname h]
  surrogate := fun name _ h => by rw [host_deliver]; exact deliver_surrogate name h

end StyleEngine.Service

/-
What reaches a sink that fills up. However a text is cut into pieces, and in whatever portions the sink takes them, it
receives as many of the first bytes as it has room for, and writing succeeds exactly if that is all of them
(`Sink.writeAll_eq`). A failure is the last that a sink is asked for: among the offers that a writer makes to anything
that takes bytes, only the last can fail, also where a later one would have been taken (`Receiver.stops_writeAll`).
The graph of a search is such a text (`SearchTree.writeDot_prefix`).
-/
import GoalRegression.Search.Dot

namespace GoalRegression

/-! ## Bytes of texts -/

theorem toList_loop_eq (bytes : ByteArray) (i : Nat) (read : List UInt8) :
    ByteArray.toList.loop bytes i read = read.reverse ++ bytes.data.toList.drop i := by
  fun_induction ByteArray.toList.loop bytes i read with
  | case1 i read hi ih =>
    have hlt : i < bytes.data.toList.length := by simpa using hi
    rw [ih, List.drop_eq_getElem_cons hlt]
    simp [ByteArray.get!, hi]
  | case2 i read hi =>
    rw [List.drop_eq_nil_of_le (by simpa using hi), List.append_nil]

theorem toList_append (a b : ByteArray) : (a ++ b).toList = a.toList ++ b.toList := by
  simp [ByteArray.toList, toList_loop_eq]

/-- The bytes of texts put together are those of the texts, one after the other. -/
theorem toList_toUTF8_join (texts : List String) :
    (String.join texts).toUTF8.toList = (texts.map fun text => text.toUTF8.toList).flatten := by
  induction texts with
  | nil => exact ByteArray.toList_empty
  | cons text rest ih =>
    rw [String.join_cons, List.map_cons, List.flatten_cons, ← ih]
    show (text ++ String.join rest).toByteArray.toList = _
    rw [String.toByteArray_append, toList_append]
    rfl

/-! ## Sinks with room -/

namespace Sink

variable {s : Sink} {bytes rest : List UInt8}

@[simp] theorem take_zero (s : Sink) (bytes : List UInt8) : s.take bytes 0 = s := by
  simp [take]

theorem take_take (s : Sink) (bytes : List UInt8) (m n : Nat) :
    (s.take bytes m).take (bytes.drop m) n = s.take bytes (m + n) := by
  simp [take, List.take_add, Nat.sub_sub]

theorem take_append_of_le {n : Nat} (h : n ≤ bytes.length) : s.take (bytes ++ rest) n = s.take bytes n := by
  simp [take, List.take_append_of_le_length h]

/-- The sink with as many of the bytes as it has room for, and whether these are all. -/
def fill (s : Sink) (bytes : List UInt8) : Sink × Except SinkFault Unit :=
  (s.take bytes (min s.room bytes.length), if bytes.length ≤ s.room then .ok () else .error s.fault)

@[simp] theorem fill_nil (s : Sink) : s.fill [] = (s, .ok ()) := by
  simp [fill]

theorem fill_of_le (h : bytes.length ≤ s.room) : s.fill bytes = (s.take bytes bytes.length, .ok ()) := by
  rw [fill, if_pos h, Nat.min_eq_right h]

theorem fill_of_lt (h : s.room < bytes.length) : s.fill bytes = (s.take bytes s.room, .error s.fault) := by
  rw [fill, if_neg (Nat.not_le.2 h), Nat.min_eq_left (Nat.le_of_lt h)]

/-- It is the same if some of the bytes are taken first. -/
theorem fill_drop {m : Nat} (hroom : m ≤ s.room) (hm : m ≤ bytes.length) :
    (s.take bytes m).fill (bytes.drop m) = s.fill bytes := by
  have hleft : (s.take bytes m).room = s.room - m := rfl
  have hrest : (bytes.drop m).length = bytes.length - m := List.length_drop
  by_cases hfits : bytes.length ≤ s.room
  · have hrestFits : (bytes.drop m).length ≤ (s.take bytes m).room := by omega
    rw [fill_of_le hfits, fill_of_le hrestFits, take_take, hrest, Nat.add_sub_cancel' hm]
  · have hover : s.room < bytes.length := Nat.lt_of_not_le hfits
    have hrestOver : (s.take bytes m).room < (bytes.drop m).length := by omega
    rw [fill_of_lt hover, fill_of_lt hrestOver, take_take, hleft, Nat.add_sub_cancel' hroom]
    rfl

/-- A sink with room accepts something of what it is offered, and no more than it has room for. -/
theorem accepts_spec (s : Sink) {offered : Nat} (h : 0 < offered) :
    s.accepts offered ≤ offered ∧ s.accepts offered ≤ s.room ∧ (s.accepts offered = 0 ↔ s.room = 0) := by
  unfold accepts
  omega

theorem writeWithin_cons (turns : Nat) (s : Sink) (b : UInt8) (rest : List UInt8) :
    s.writeWithin (turns + 1) (b :: rest) =
      if s.accepts (b :: rest).length = 0 then (s, .error s.fault)
      else (s.take (b :: rest) (s.accepts (b :: rest).length)).writeWithin turns
        ((b :: rest).drop (s.accepts (b :: rest).length)) := rfl

/-- A piece is written as far as there is room. -/
theorem writeWithin_eq {turns : Nat} (h : bytes.length ≤ turns) : s.writeWithin turns bytes = s.fill bytes := by
  induction turns generalizing s bytes with
  | zero =>
    obtain rfl : bytes = [] := List.length_eq_zero_iff.1 (Nat.le_zero.1 h)
    simp [writeWithin]
  | succ turns ih =>
    cases bytes with
    | nil => simp [writeWithin]
    | cons b rest =>
      have hpos : 0 < (b :: rest).length := Nat.succ_pos _
      obtain ⟨hle, hroom, hzero⟩ := s.accepts_spec hpos
      rw [writeWithin_cons]
      by_cases hcount : s.accepts (b :: rest).length = 0
      · have hfull := hzero.1 hcount
        rw [if_pos hcount, fill_of_lt (by omega), hfull, take_zero]
      · rw [if_neg hcount, ih (by rw [List.length_drop]; omega), fill_drop hroom hle]

theorem write_eq (s : Sink) (bytes : List UInt8) : s.write bytes = s.fill bytes :=
  writeWithin_eq (Nat.le_refl _)

/-- Pieces are written as far as there is room for all of them together. -/
theorem writeAll_eq (s : Sink) (pieces : List (List UInt8)) : s.writeAll pieces = s.fill pieces.flatten := by
  induction pieces generalizing s with
  | nil => simp [writeAll]
  | cons piece rest ih =>
    rw [writeAll, write_eq, List.flatten_cons]
    by_cases hfits : piece.length ≤ s.room
    · have hdrop : (s.take (piece ++ rest.flatten) piece.length).fill ((piece ++ rest.flatten).drop piece.length) =
          s.fill (piece ++ rest.flatten) := fill_drop hfits (by simp)
      rw [fill_of_le hfits]
      dsimp only
      rw [ih, ← hdrop, take_append_of_le (Nat.le_refl _), List.drop_left]
    · rw [fill_of_lt (by omega), fill_of_lt (by rw [List.length_append]; omega), take_append_of_le (by omega)]

end Sink

/-! ## Offers -/

/-- Anything that takes bytes: of those offered it says how many it takes, or refuses with a text. -/
structure Receiver (σ : Type) where
  offer : σ → List UInt8 → σ × Except String Nat

/-- Bytes that were offered, and the answer. -/
structure Offer where
  bytes : List UInt8
  answer : Except String Nat

namespace Offer

/-- The fault of an offer that fails. Taking nothing is failing. -/
def fault? (offer : Offer) : Option SinkFault :=
  match offer.answer with
  | .error text => some (.refused text)
  | .ok 0 => some .stalled
  | .ok (_ + 1) => none

/-- What was taken. -/
def taken (offer : Offer) : List UInt8 :=
  match offer.answer with
  | .error _ => []
  | .ok count => offer.bytes.take count

end Offer

/-- What writing leaves behind: the receiver, the offers made to it in their order, and the result. -/
structure Transcript (σ : Type) where
  state : σ
  offers : List Offer
  result : Except SinkFault Unit

namespace Transcript

variable {σ : Type}

def nothing (s : σ) : Transcript σ := ⟨s, [], .ok ()⟩

def ofOffer (s : σ) (offer : Offer) : Transcript σ :=
  ⟨s, [offer], match offer.fault? with
    | none => .ok ()
    | some fault => .error fault⟩

/-- Goes on from where the receiver stands, unless there was a failure. -/
def andThen (t : Transcript σ) (next : σ → Transcript σ) : Transcript σ :=
  match t.result with
  | .ok () => { next t.state with offers := t.offers ++ (next t.state).offers }
  | .error _ => t

/-- Every offer succeeded, or only the last failed and it gives the result. -/
def Stops (t : Transcript σ) : Prop :=
  match t.result with
  | .ok () => ∀ offer ∈ t.offers, offer.fault? = none
  | .error fault =>
    ∃ before last, t.offers = before ++ [last] ∧ (∀ offer ∈ before, offer.fault? = none) ∧ last.fault? = some fault

theorem stops_nothing (s : σ) : (nothing s).Stops := fun _ h => absurd h List.not_mem_nil

theorem stops_ofOffer (s : σ) (offer : Offer) : (ofOffer s offer).Stops := by
  unfold ofOffer Stops
  cases hfault : offer.fault? with
  | none => simpa using hfault
  | some fault => exact ⟨[], offer, rfl, fun _ h => absurd h List.not_mem_nil, hfault⟩

theorem Stops.andThen {t : Transcript σ} {next : σ → Transcript σ} (h : t.Stops) (hnext : (next t.state).Stops) :
    (t.andThen next).Stops := by
  obtain ⟨s, offers, result⟩ := t
  cases result with
  | error => exact h
  | ok =>
    unfold Transcript.andThen
    dsimp only at hnext ⊢
    generalize next s = rest at hnext ⊢
    obtain ⟨s', later, result'⟩ := rest
    cases result' with
    | ok => exact List.forall_mem_append.2 ⟨h, hnext⟩
    | error fault =>
      obtain ⟨before, last, heq, hbefore, hlast⟩ := hnext
      refine ⟨offers ++ before, last, ?_, List.forall_mem_append.2 ⟨h, hbefore⟩, hlast⟩
      rw [List.append_assoc, ← heq]

end Transcript

namespace Receiver

variable {σ : Type} (r : Receiver σ)

/-- Offers a piece, then what is left of it, until all is taken or an offer fails. What succeeds takes a byte at
least. -/
def write (s : σ) : List UInt8 → Transcript σ
  | [] => .nothing s
  | b :: rest =>
    let offer : Offer := ⟨b :: rest, (r.offer s (b :: rest)).2⟩
    (Transcript.ofOffer (r.offer s (b :: rest)).1 offer).andThen fun s =>
      write s (rest.drop (offer.taken.length - 1))
termination_by bytes => bytes.length
decreasing_by
  rw [List.length_drop, List.length_cons]
  omega

/-- Writes pieces one after the other, up to the first failure. -/
def writeAll (s : σ) : List (List UInt8) → Transcript σ
  | [] => .nothing s
  | piece :: rest => (r.write s piece).andThen fun s => writeAll s rest

theorem stops_write (s : σ) (piece : List UInt8) : (r.write s piece).Stops := by
  fun_induction write r s piece with
  | case1 s => exact Transcript.stops_nothing s
  | case2 s b rest offer ih => exact (Transcript.stops_ofOffer _ offer).andThen (ih _)

/-- Nothing is offered after an offer that failed. -/
theorem stops_writeAll (s : σ) (pieces : List (List UInt8)) : (r.writeAll s pieces).Stops := by
  induction pieces generalizing s with
  | nil => exact Transcript.stops_nothing s
  | cons piece rest ih => exact (r.stops_write s piece).andThen (ih _)

end Receiver

/-! ## Sinks as receivers -/

namespace Sink

/-- The answer of a full sink. -/
def refusal (s : Sink) : Except String Nat :=
  match s.fault with
  | .refused text => .error text
  | .stalled => .ok 0

/-- A sink answers an offer with what it accepts, and with a refusal once it is full. -/
def receiver : Receiver Sink where
  offer s bytes :=
    let count := s.accepts bytes.length
    if count = 0 then (s, s.refusal) else (s.take bytes count, .ok count)

/-- The transcript is of a writing with this outcome, and what the sink has received since is what it took of the
offers. -/
structure Reports (s : Sink) (outcome : Sink × Except SinkFault Unit) (t : Transcript Sink) : Prop where
  outcome_eq : outcome = (t.state, t.result)
  received_eq : t.state.received = s.received ++ t.offers.flatMap (·.taken)

theorem reports_nothing (s : Sink) : s.Reports (s, .ok ()) (.nothing s) :=
  ⟨rfl, (List.append_nil _).symm⟩

/-- After a first part that succeeds the transcript goes on with that of the second. -/
theorem Reports.andThen {s s' : Sink} {outcome : Sink × Except SinkFault Unit} {t : Transcript Sink}
    {next : Sink → Transcript Sink} (h : s.Reports (s', .ok ()) t) (hnext : s'.Reports outcome (next s')) :
    s.Reports outcome (t.andThen next) := by
  obtain ⟨state, offers, result⟩ := t
  obtain ⟨rfl, rfl⟩ := Prod.mk.inj h.outcome_eq
  refine ⟨hnext.outcome_eq, ?_⟩
  show (next s').state.received = _
  rw [hnext.received_eq, h.received_eq]
  simp [Transcript.andThen]

theorem Reports.andThen_of_error {s s' : Sink} {fault : SinkFault} {t : Transcript Sink}
    {next : Sink → Transcript Sink} (h : s.Reports (s', .error fault) t) :
    s.Reports (s', .error fault) (t.andThen next) := by
  obtain ⟨state, offers, result⟩ := t
  obtain ⟨rfl, rfl⟩ := Prod.mk.inj h.outcome_eq
  exact h

theorem offer_of_full {s : Sink} {bytes : List UInt8} (h : s.accepts bytes.length = 0) :
    receiver.offer s bytes = (s, s.refusal) := if_pos h

theorem offer_of_room {s : Sink} {bytes : List UInt8} (h : s.accepts bytes.length ≠ 0) :
    receiver.offer s bytes = (s.take bytes (s.accepts bytes.length), .ok (s.accepts bytes.length)) := if_neg h

/-- A refusal is a failure with the fault of the sink. -/
theorem reports_refusal (s : Sink) (bytes : List UInt8) :
    s.Reports (s, .error s.fault) (.ofOffer s ⟨bytes, s.refusal⟩) := by
  constructor <;> cases hfault : s.fault <;> simp [Transcript.ofOffer, Offer.fault?, Offer.taken, refusal, hfault]

theorem reports_take (s : Sink) (bytes : List UInt8) (count : Nat) :
    s.Reports (s.take bytes (count + 1), .ok ())
      (.ofOffer (s.take bytes (count + 1)) ⟨bytes, .ok (count + 1)⟩) := by
  constructor <;> simp [Transcript.ofOffer, Offer.fault?, Offer.taken, take]

theorem reports_writeWithin {turns : Nat} {s : Sink} {bytes : List UInt8} (h : bytes.length ≤ turns) :
    s.Reports (s.writeWithin turns bytes) (receiver.write s bytes) := by
  induction turns generalizing s bytes with
  | zero =>
    obtain rfl : bytes = [] := List.length_eq_zero_iff.1 (Nat.le_zero.1 h)
    simpa [writeWithin, Receiver.write] using reports_nothing s
  | succ turns ih =>
    cases bytes with
    | nil => simpa [writeWithin, Receiver.write] using reports_nothing s
    | cons b rest =>
      have hpos : 0 < (b :: rest).length := Nat.succ_pos _
      have hle := (s.accepts_spec hpos).1
      rw [writeWithin_cons, Receiver.write]
      generalize hbytes : b :: rest = bytes at *
      by_cases hcount : s.accepts bytes.length = 0
      · rw [if_pos hcount, offer_of_full hcount]
        exact (s.reports_refusal bytes).andThen_of_error
      · rw [if_neg hcount, offer_of_room hcount]
        generalize s.accepts bytes.length = count at *
        obtain ⟨count, rfl⟩ := Nat.exists_eq_succ_of_ne_zero hcount
        have htaken : (⟨bytes, .ok (count + 1)⟩ : Offer).taken.length - 1 = count := by
          simp [Offer.taken]
          omega
        have hdrop : bytes.drop (count + 1) = rest.drop count := by rw [← hbytes, List.drop_succ_cons]
        have hlength : bytes.length = rest.length + 1 := by rw [← hbytes, List.length_cons]
        refine (s.reports_take bytes count).andThen ?_
        simp only [htaken, hdrop]
        exact ih (by rw [List.length_drop]; omega)

theorem reports_writeAll (s : Sink) (pieces : List (List UInt8)) :
    s.Reports (s.writeAll pieces) (receiver.writeAll s pieces) := by
  induction pieces generalizing s with
  | nil => exact reports_nothing s
  | cons piece rest ih =>
    have hpiece : s.Reports (s.write piece) (receiver.write s piece) := reports_writeWithin (Nat.le_refl _)
    rw [writeAll, Receiver.writeAll]
    cases hwrite : s.write piece with
    | mk s' result =>
      rw [hwrite] at hpiece
      cases result with
      | ok => exact hpiece.andThen (ih s')
      | error => exact hpiece.andThen_of_error

end Sink

/-! ## The graph of a search -/

namespace SearchTree

/-- The bytes of the graph's text. -/
def dotBytes (tree : SearchTree) : List UInt8 := tree.toDot.toUTF8.toList

theorem flatten_dotLines (tree : SearchTree) :
    (tree.dotLines.map fun line => line.toUTF8.toList).flatten = tree.dotBytes :=
  (toList_toUTF8_join tree.dotLines).symm

/-- A sink receives the first bytes of the graph's text, as many as it has room for. Writing succeeds exactly if this
is the whole text, and ends with the fault of the sink otherwise. It is the same in whatever pieces the text is handed
over: then what the sink receives is what it takes of the offers made, and after an offer that fails none is made,
neither to the sink nor to anything else that takes bytes. -/
theorem writeDot_prefix (tree : SearchTree) (sink : Sink) :
    (tree.writeDot sink).1.received =
      sink.received ++ tree.dotBytes.take (min sink.room tree.dotBytes.length) ∧
    ((tree.writeDot sink).2 = .ok () ↔ tree.dotBytes.length ≤ sink.room) ∧
    (sink.room < tree.dotBytes.length → (tree.writeDot sink).2 = .error (.io sink.fault)) ∧
    ∀ pieces, pieces.flatten = tree.dotBytes →
      sink.Reports (sink.writeAll pieces) (Sink.receiver.writeAll sink pieces) ∧
      tree.writeDot sink = ((sink.writeAll pieces).1, (sink.writeAll pieces).2.mapError .io) ∧
      ∀ (σ : Type) (r : Receiver σ) (s : σ), (r.writeAll s pieces).Stops := by
  have hwrite : tree.writeDot sink = ((sink.fill tree.dotBytes).1, (sink.fill tree.dotBytes).2.mapError .io) := by
    unfold writeDot
    rw [Sink.writeAll_eq, flatten_dotLines]
  refine ⟨by rw [hwrite]; rfl, ?_, ?_, ?_⟩
  · rw [hwrite]
    by_cases hfits : tree.dotBytes.length ≤ sink.room
    · rw [Sink.fill_of_le hfits]
      exact iff_of_true rfl hfits
    · rw [Sink.fill_of_lt (Nat.lt_of_not_le hfits)]
      exact iff_of_false (fun h => nomatch h) hfits
  · intro hfull
    rw [hwrite, Sink.fill_of_lt hfull]
    rfl
  · intro pieces hpieces
    refine ⟨sink.reports_writeAll pieces, ?_, fun σ r s => r.stops_writeAll s pieces⟩
    rw [hwrite, Sink.writeAll_eq, hpieces]

end SearchTree

end GoalRegression

/-
A queue as a waiting line. Whatever is asked of a fresh queue, it answers as the line of what waits does, kept in
the order of arrival: to be served next is what has the least bucket and came first of these (`ServedFrom`,
`Serves`). The line is not how the queue keeps its items. What connects the two is that the items of each bucket
stand in the same order in both (`Tracks`), which every request keeps; from it, by induction on the requests, the
answers are those of the line (`serveAll_serves`), nothing gets lost and nothing is served twice.
-/
import GoalRegression.Proofs.PriorityQueue.Pending

namespace GoalRegression

/-! ## Requests -/

/-- What can be asked of a queue. -/
inductive Request (α : Type u) where
  | enqueue (priority : Binary32) (item : α)
  | pop
  | dequeue

inductive Answer (α : Type u) where
  | accepted
  | popped (item : Option α)
  | dequeued (result : Except PlanningError α)

/-- The item that the answer hands out. -/
def Answer.item? {α : Type u} : Answer α → Option α
  | accepted => none
  | popped item => item
  | dequeued (.ok item) => some item
  | dequeued (.error _) => none

namespace PriorityQueue

variable {α : Type u}

/-- The answer to a request and the queue after it. If nothing can be taken out, the queue stays as it is. -/
def serve (q : PriorityQueue α) : Request α → Answer α × PriorityQueue α
  | .enqueue priority item => (.accepted, q.enqueue priority item)
  | .pop =>
    match q.pop? with
    | some (item, rest) => (.popped (some item), rest)
    | none => (.popped none, q)
  | .dequeue =>
    match q.dequeue with
    | .ok (item, rest) => (.dequeued (.ok item), rest)
    | .error e => (.dequeued (.error e), q)

/-- The answers to requests made one after the other, and the queue after the last. -/
def serveAll (q : PriorityQueue α) : List (Request α) → List (Answer α) × PriorityQueue α
  | [] => ([], q)
  | request :: requests =>
    let served := (q.serve request).2.serveAll requests
    ((q.serve request).1 :: served.1, served.2)

/-! ## The line -/

/-- The entry is the one to be served next out of the line, and leaves the rest: no bucket is lower than its own,
and nothing of its own bucket arrived before it. -/
inductive ServedFrom : List (Int × α) → Int × α → List (Int × α) → Prop
  | intro {before after : List (Int × α)} {e : Int × α} (hbefore : ∀ x ∈ before, e.1 < x.1)
    (hafter : ∀ x ∈ after, e.1 ≤ x.1) : ServedFrom (before ++ e :: after) e (before ++ after)

/-- The answer of a line to a request, what leaves the line with it, and the line after it. -/
inductive Answers (key : Binary32 → Int) :
    List (Int × α) → Request α → Answer α → List (Int × α) → List (Int × α) → Prop
  | enqueue {line priority item} :
    Answers key line (.enqueue priority item) .accepted [] (line ++ [(key priority, item)])
  | pop {line e rest} (h : ServedFrom line e rest) : Answers key line .pop (.popped (some e.2)) [e] rest
  | popNothing : Answers key [] .pop (.popped none) [] []
  | dequeue {line e rest} (h : ServedFrom line e rest) : Answers key line .dequeue (.dequeued (.ok e.2)) [e] rest
  | dequeueNothing : Answers key [] .dequeue (.dequeued (.error .emptyQueue)) [] []

/-- The answers of a line to requests made one after the other, all that leaves it, and the line that is left. -/
inductive Serves (key : Binary32 → Int) :
    List (Int × α) → List (Request α) → List (Answer α) → List (Int × α) → List (Int × α) → Prop
  | done {line} : Serves key line [] [] [] line
  | next {line request answer taken rest requests answers more left} (h : Answers key line request answer taken rest)
    (hrest : Serves key rest requests answers more left) :
    Serves key line (request :: requests) (answer :: answers) (taken ++ more) left

/-- What a request brings in, with the bucket of its priority. -/
def arrivals (key : Binary32 → Int) : Request α → List (Int × α)
  | .enqueue priority item => [(key priority, item)]
  | _ => []

section Line

variable {key : Binary32 → Int} {line taken rest left : List (Int × α)} {e : Int × α}
  {request : Request α} {answer : Answer α} {requests : List (Request α)} {answers : List (Answer α)}

theorem ServedFrom.perm (h : ServedFrom line e rest) : line.Perm (e :: rest) := by
  cases h with
  | intro => exact List.perm_middle

theorem ServedFrom.ne_nil (h : ServedFrom line e rest) : line ≠ [] := by
  cases h with
  | intro => simp

theorem Answers.perm (h : Answers key line request answer taken rest) :
    (line ++ arrivals key request).Perm (taken ++ rest) := by
  cases h with
  | enqueue => exact List.Perm.refl _
  | pop h | dequeue h => simpa [arrivals] using h.perm
  | popNothing | dequeueNothing => exact List.Perm.refl _

theorem Answers.items_eq (h : Answers key line request answer taken rest) :
    answer.item?.toList = taken.map (·.2) := by
  cases h <;> rfl

/-- What was there and what came in is what left and what is left. -/
theorem Serves.perm (h : Serves key line requests answers taken left) :
    (line ++ requests.flatMap (arrivals key)).Perm (taken ++ left) := by
  induction h with
  | done => simp
  | @next line request _ taken rest requests _ more left h _ ih =>
    have hrest : (taken ++ rest ++ requests.flatMap (arrivals key)).Perm (taken ++ (more ++ left)) := by
      rw [List.append_assoc]
      exact ih.append_left taken
    rw [List.flatMap_cons, ← List.append_assoc, List.append_assoc taken]
    exact (h.perm.append_right _).trans hrest

/-- The items handed out are those that left, in that order. -/
theorem Serves.items_eq (h : Serves key line requests answers taken left) :
    answers.flatMap (·.item?.toList) = taken.map (·.2) := by
  induction h with
  | done => rfl
  | next h _ ih => rw [List.flatMap_cons, List.map_append, h.items_eq, ih]

end Line

/-! ## The queue keeps the line -/

/-- The queue holds what stands in the line, and of each bucket in the same order. -/
structure Tracks (q : PriorityQueue α) (line : List (Int × α)) : Prop where
  wellFormed : q.WellFormed
  perm : q.pending.Perm line
  bucket_eq : ∀ key : Int, q.pending.filter (·.1 == key) = line.filter (·.1 == key)

variable {q q' : PriorityQueue α} {line : List (Int × α)} {item : α}

theorem key_eq_of_factor_eq (h : q'.factor = q.factor) : q'.key = q.key := by
  funext priority
  unfold key
  rw [h]

theorem Tracks.size_eq (h : q.Tracks line) : q.size = line.length := by
  rw [h.wellFormed.size_eq, h.perm.length_eq]

theorem Tracks.pop?_eq_none_iff (h : q.Tracks line) : q.pop? = none ↔ line = [] := by
  rw [PriorityQueue.pop?_eq_none_iff h.wellFormed]
  constructor
  · intro hnil
    exact List.nil_perm.1 (hnil ▸ h.perm)
  · rintro rfl
    exact List.perm_nil.1 h.perm

theorem Tracks.enqueue (h : q.Tracks line) (priority : Binary32) (item : α) :
    (q.enqueue priority item).Tracks (line ++ [(q.key priority, item)]) where
  wellFormed := h.wellFormed.enqueue priority item
  perm := (pending_enqueue_perm q priority item).trans ((h.perm.cons _).trans (List.perm_append_singleton ..).symm)
  bucket_eq key := by
    rw [pending_enqueue, List.filter_append, List.filter_append, ← h.bucket_eq key, List.filter_filter]
    by_cases hkey : q.key priority = key
    · -- behind all of its own bucket, before all that are higher
      subst hkey
      have hown : q.pending.filter (fun e => e.1 == q.key priority && decide (e.1 ≤ q.key priority)) =
          q.pending.filter (·.1 == q.key priority) :=
        List.filter_congr fun e _ => by by_cases he : e.1 = q.key priority <;> simp [he]
      have hhigher : q.pending.filter (fun e => e.1 == q.key priority && decide (q.key priority < e.1)) = [] :=
        List.filter_eq_nil_iff.2 fun e _ => by simp; omega
      simp [hown, hhigher]
    · -- another bucket is on one side of it as a whole
      rw [List.filter_cons_of_neg (by simpa using hkey), List.filter_filter]
      rcases Int.lt_or_lt_of_ne hkey with hlt | hlt
      · have hlower : q.pending.filter (fun e => e.1 == key && decide (e.1 ≤ q.key priority)) = [] :=
          List.filter_eq_nil_iff.2 fun e _ => by simp; omega
        have hhigher : q.pending.filter (fun e => e.1 == key && decide (q.key priority < e.1)) =
            q.pending.filter (·.1 == key) :=
          List.filter_congr fun e _ => by by_cases he : e.1 = key <;> simp [he]; omega
        simp [hlower, hhigher, hkey]
      · have hlower : q.pending.filter (fun e => e.1 == key && decide (e.1 ≤ q.key priority)) =
            q.pending.filter (·.1 == key) :=
          List.filter_congr fun e _ => by by_cases he : e.1 = key <;> simp [he]; omega
        have hhigher : q.pending.filter (fun e => e.1 == key && decide (q.key priority < e.1)) = [] :=
          List.filter_eq_nil_iff.2 fun e _ => by simp; omega
        simp [hlower, hhigher, hkey]

/-- What leaves the queue is to be served next out of the line. -/
theorem Tracks.pop (h : q.Tracks line) (hpop : q.pop? = some (item, q')) :
    ∃ e rest, ServedFrom line e rest ∧ e.2 = item ∧ q'.Tracks rest := by
  obtain ⟨⟨key, hpending⟩, -, hw⟩ := pop?_eq_some hpop
  have hsorted := q.pending_sorted
  have hbucket := h.bucket_eq
  have hperm := h.perm
  rw [hpending] at hsorted hbucket hperm
  -- nothing in the line has a lower bucket
  have hleast : ∀ x ∈ line, key ≤ x.1 := by
    intro x hx
    rcases List.mem_cons.1 (hperm.mem_iff.2 hx) with rfl | hx
    · exact Int.le_refl _
    · exact List.rel_of_pairwise_cons hsorted hx
  -- and it is the first of its own bucket there
  have hown := hbucket key
  rw [List.filter_cons_of_pos (by simp), eq_comm, List.filter_eq_cons_iff] at hown
  obtain ⟨before, after, rfl, hbefore, -, hafter⟩ := hown
  refine ⟨(key, item), before ++ after, .intro ?_ ?_, rfl, hw h.wellFormed, ?_, ?_⟩
  · intro x hx
    have hle := hleast x (List.mem_append_left _ hx)
    have hne := hbefore x hx
    simp only [beq_iff_eq] at hne
    simp only
    omega
  · exact fun x hx => hleast x (List.mem_append_right _ (List.mem_cons_of_mem _ hx))
  · exact (hperm.trans List.perm_middle).cons_inv
  · intro other
    by_cases hother : key = other
    · subst hother
      rw [List.filter_append, List.filter_eq_nil_iff.2 hbefore, List.nil_append, hafter]
    · have hrest := hbucket other
      rwa [List.filter_cons_of_neg (by simpa using hother), List.filter_append,
        List.filter_cons_of_neg (by simpa using hother), ← List.filter_append] at hrest

theorem tracks_withPrecision (precision : UInt32) : (withPrecision precision : PriorityQueue α).Tracks [] where
  wellFormed := ⟨(fun _ hb => by cases hb), rfl⟩
  perm := List.Perm.refl []
  bucket_eq _ := rfl

/-! ## All requests -/

/-- Nothing waits and nothing can be taken out, or what can be taken out is what the line has to serve. -/
theorem Tracks.pop?_cases (h : q.Tracks line) :
    q.pop? = none ∧ line = [] ∨
      ∃ e q' rest, q.pop? = some (e.2, q') ∧ ServedFrom line e rest ∧ q'.Tracks rest ∧ q'.key = q.key := by
  cases hpop : q.pop? with
  | none => exact .inl ⟨rfl, h.pop?_eq_none_iff.1 hpop⟩
  | some r =>
    obtain ⟨item, q'⟩ := r
    obtain ⟨e, rest, hnext, rfl, hrest⟩ := h.pop hpop
    exact .inr ⟨e, q', rest, rfl, hnext, hrest, key_eq_of_factor_eq (pop?_eq_some hpop).2.1⟩

/-- A queue that keeps a line gives the answer of the line to a request, and goes on keeping it. -/
theorem Tracks.serve (h : q.Tracks line) (request : Request α) :
    ∃ taken rest, Answers q.key line request (q.serve request).1 taken rest ∧ (q.serve request).2.Tracks rest ∧
      (q.serve request).2.key = q.key := by
  cases request with
  | enqueue priority item =>
    exact ⟨[], _, .enqueue, h.enqueue priority item, key_eq_of_factor_eq (factor_enqueue ..)⟩
  | pop =>
    rcases h.pop?_cases with ⟨hpop, rfl⟩ | ⟨e, q', rest, hpop, hnext, hrest, hkey⟩
    · simp only [PriorityQueue.serve, hpop]
      exact ⟨[], [], .popNothing, h, trivial⟩
    · simp only [PriorityQueue.serve, hpop]
      exact ⟨[e], rest, .pop hnext, hrest, hkey⟩
  | dequeue =>
    rcases h.pop?_cases with ⟨hpop, rfl⟩ | ⟨e, q', rest, hpop, hnext, hrest, hkey⟩
    · simp only [PriorityQueue.serve, PriorityQueue.dequeue, hpop]
      exact ⟨[], [], .dequeueNothing, h, trivial⟩
    · simp only [PriorityQueue.serve, PriorityQueue.dequeue, hpop]
      exact ⟨[e], rest, .dequeue hnext, hrest, hkey⟩

theorem Tracks.serveAll (h : q.Tracks line) (requests : List (Request α)) :
    ∃ taken left, Serves q.key line requests (q.serveAll requests).1 taken left ∧
      (q.serveAll requests).2.Tracks left := by
  induction requests generalizing q line with
  | nil => exact ⟨[], line, .done, h⟩
  | cons request requests ih =>
    obtain ⟨taken, rest, hanswer, hrest, hkey⟩ := h.serve request
    obtain ⟨more, left, hserves, hleft⟩ := ih hrest
    rw [hkey] at hserves
    exact ⟨taken ++ more, left, .next hanswer hserves, hleft⟩

/-- A fresh queue of any precision answers whatever requests as the line of what waits does: it hands out what is
of the least bucket and came first of these, and it has nothing to hand out only if nothing waits, which leaves it
as it is. Its size is the length of the line. All that came in has been handed out once or waits, each under the
bucket of its own priority. -/
theorem serveAll_serves (precision : UInt32) (requests : List (Request α)) :
    ∃ answers q taken line, (withPrecision precision : PriorityQueue α).serveAll requests = (answers, q) ∧
      Serves (withPrecision precision : PriorityQueue α).key [] requests answers taken line ∧
      answers.flatMap (·.item?.toList) = taken.map (·.2) ∧
      (requests.flatMap (arrivals (withPrecision precision : PriorityQueue α).key)).Perm (taken ++ line) ∧
      q.size = line.length ∧ (q.isEmpty = true ↔ line = []) ∧
      ((q.serve .pop).1 = .popped none ↔ line = []) ∧
      ((q.serve .dequeue).1 = .dequeued (.error .emptyQueue) ↔ line = []) ∧
      (line = [] → (q.serve .pop).2 = q ∧ (q.serve .dequeue).2 = q) := by
  obtain ⟨taken, line, hserves, htracks⟩ := (tracks_withPrecision (α := α) precision).serveAll requests
  refine ⟨_, _, taken, line, rfl, hserves, hserves.items_eq, hserves.perm, htracks.size_eq, ?_, ?_⟩
  · unfold isEmpty
    rw [htracks.size_eq, beq_iff_eq, List.length_eq_zero_iff]
  · rcases htracks.pop?_cases with ⟨hpop, rfl⟩ | ⟨e, q', rest, hpop, hnext, -⟩
    · simp [PriorityQueue.serve, PriorityQueue.dequeue, hpop]
    · simp [PriorityQueue.serve, PriorityQueue.dequeue, hpop, hnext.ne_nil]

/-- With less than one digit, five and one are of the same bucket. -/
example : ((withPrecision 4294967295 : PriorityQueue String).serveAll [.pop, .enqueue (.ofInt 20) "twenty",
    .enqueue (.ofInt 5) "five", .enqueue 1 "one", .pop, .dequeue]).1.map (·.item?) =
      [none, none, none, none, some "five", some "one"] := by decide +kernel

end PriorityQueue

end GoalRegression

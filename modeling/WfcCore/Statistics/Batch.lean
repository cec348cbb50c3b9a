import WfcCore.Statistics.Deletion

/-!
# A batch and its parts

`multi_push` recompacts a batch and pushes what comes out record by record, under one response; a batch that
cannot be recompacted is refused as a whole.
-/

namespace WfcCore.Statistics.AggregatorDomain

open Foundation

variable {w : Wrtstat} {s : AggregatorDomain w}

/-! ### Answers stand apart -/

/-- The domain with other answers in its history. -/
def withAnswers (answers : List Response) (s : AggregatorDomain w) : AggregatorDomain w :=
  { s with answered := answers }

@[simp] theorem withAnswers_withAnswers (answers later : List Response) (s : AggregatorDomain w) :
    (s.withAnswers answers).withAnswers later = s.withAnswers later := rfl

theorem answer_eq (s : AggregatorDomain w) (cb : Bool) (res : Response) :
    s.answer cb res = s.withAnswers (s.answered ++ if cb then [res] else []) := by
  unfold answer withAnswers
  cases cb with
  | true => rfl
  | false => simp

theorem forward_withAnswers (answers : List Response) (s : AggregatorDomain w) (request : Request) :
    (s.withAnswers answers).forward request = (s.forward request).withAnswers answers := by
  unfold forward
  rw [apply_ite (withAnswers answers)]
  rfl

theorem pushNext_withAnswers (answers : List Response) (s : AggregatorDomain w) (req : Push) :
    (s.withAnswers answers).pushNext req = (s.pushNext req).withAnswers answers := by
  unfold pushNext
  rw [apply_ite (withAnswers answers)]
  exact if_congr Iff.rfl rfl (forward_withAnswers answers (s.hand req) (.push req))

theorem pushNexts_withAnswers (answers : List Response) (s : AggregatorDomain w) (handed : List Push) :
    (handed.foldl pushNext s).withAnswers answers = handed.foldl pushNext (s.withAnswers answers) :=
  (List.foldl_hom (withAnswers answers) (pushNext_withAnswers answers)).symm

/-- To push a record neither reads nor writes the answers. -/
theorem pushRecord_withAnswers (answers : List Response) (s : AggregatorDomain w) (req : Push) (now : Int) :
    (s.withAnswers answers).pushRecord req now = (s.pushRecord req now).withAnswers answers := by
  unfold pushRecord
  rw [apply_ite (withAnswers answers)]
  refine if_congr Iff.rfl rfl (Eq.trans ?_ (pushNexts_withAnswers answers _ _).symm)
  rfl

theorem pushRecord_answered (s : AggregatorDomain w) (req : Push) (now : Int) :
    (s.pushRecord req now).answered = s.answered := by
  rw [← show s.withAnswers s.answered = s from rfl, pushRecord_withAnswers]
  rfl

/-! ### The records of a batch -/

/-- Record `i` of a batch, pushed at the clock reading `clock i`. -/
def pushRecords (clock : Nat → Int) (s : AggregatorDomain w) (records : List (Push × Nat)) : AggregatorDomain w :=
  records.foldl (fun s p => s.pushRecord p.1 (clock p.2)) s

/-- The same records in calls of `push`, call `i` with or without a callback. -/
def pushSingly (cbs : Nat → Bool) (clock : Nat → Int) (s : AggregatorDomain w) (records : List (Push × Nat)) :
    AggregatorDomain w :=
  records.foldl (fun s p => s.push (some p.1) (cbs p.2) (clock p.2)) s

theorem pushRecords_withAnswers (clock : Nat → Int) (answers : List Response) (s : AggregatorDomain w)
    (records : List (Push × Nat)) :
    (s.withAnswers answers).pushRecords clock records = (s.pushRecords clock records).withAnswers answers :=
  List.foldl_hom (withAnswers answers) fun s p => pushRecord_withAnswers answers s p.1 (clock p.2)

theorem pushRecords_answered (clock : Nat → Int) (s : AggregatorDomain w) (records : List (Push × Nat)) :
    (s.pushRecords clock records).answered = s.answered := by
  induction records generalizing s with
  | nil => rfl
  | cons p records ih => exact (ih _).trans (pushRecord_answered s p.1 (clock p.2))

/-- The clock matters for records without a time stamp. -/
theorem pushRecord_clock {req : Push} {now now' : Int} (same : req.ts = 0 → now = now') (s : AggregatorDomain w) :
    s.pushRecord req now = s.pushRecord req now' := by
  by_cases unstamped : req.ts = 0
  · rw [same unstamped]
  · unfold pushRecord
    rw [if_neg unstamped, if_neg unstamped]

/-- Single calls do what the batch does with its records, whatever they answer. -/
theorem pushSingly_eq (cbs : Nat → Bool) {clock clock' : Nat → Int} {records : List (Push × Nat)}
    (same : ∀ p ∈ records, p.1.ts = 0 → clock p.2 = clock' p.2) (answers : List Response) (s : AggregatorDomain w) :
    (s.pushSingly cbs clock' records).withAnswers answers = (s.pushRecords clock records).withAnswers answers := by
  induction records generalizing s with
  | nil => rfl
  | cons p records ih =>
    obtain ⟨now, later⟩ := List.forall_mem_cons.mp same
    have head : s.push (some p.1) (cbs p.2) (clock' p.2) =
        (s.pushRecord p.1 (clock p.2)).withAnswers (s.answered ++ if cbs p.2 then [.created] else []) := by
      rw [pushRecord_clock now, ← pushRecord_answered s p.1 (clock' p.2)]
      exact answer_eq _ _ _
    calc
      (s.pushSingly cbs clock' (p :: records)).withAnswers answers
        = ((s.push (some p.1) (cbs p.2) (clock' p.2)).pushSingly cbs clock' records).withAnswers answers := rfl
      _ = ((s.push (some p.1) (cbs p.2) (clock' p.2)).pushRecords clock records).withAnswers answers := ih later _
      _ = ((s.pushRecord p.1 (clock p.2)).pushRecords clock records).withAnswers answers := by
        rw [head, pushRecords_withAnswers, withAnswers_withAnswers]

/-! ### The batch -/

theorem multiPush_error {req : MultiPush} {err : String} (failed : w.recompact req = .error err)
    (s : AggregatorDomain w) (cb : Bool) (clock : Nat → Int) :
    s.multiPush (some req) cb clock = s.withAnswers (s.answered ++ if cb then [.failed err] else []) := by
  unfold multiPush
  simp only [failed]
  exact answer_eq s cb (.failed err)

theorem multiPush_ok {req out : MultiPush} (done : w.recompact req = .ok out)
    (s : AggregatorDomain w) (cb : Bool) (clock : Nat → Int) :
    s.multiPush (some req) cb clock =
      (s.pushRecords clock out.data.zipIdx).withAnswers (s.answered ++ if cb then [.created] else []) := by
  unfold multiPush
  simp only [done]
  rw [← pushRecords_answered clock s out.data.zipIdx]
  exact answer_eq _ cb .created

/-- A batch that cannot be recompacted leaves the domain as it is but for one response with status false. Else
it leaves what single pushes of the recompacted records leave, and one response. -/
theorem multiPush_spec (s : AggregatorDomain w) (req : MultiPush) (cb : Bool) (clock : Nat → Int) :
    (∀ err, w.recompact req = .error err →
      s.multiPush (some req) cb clock = { s with answered := s.answered ++ if cb then [.failed err] else [] }) ∧
    ∀ out, w.recompact req = .ok out → ∀ (cbs : Nat → Bool) (clock' : Nat → Int),
      (∀ p ∈ out.data.zipIdx, p.1.ts = 0 → clock p.2 = clock' p.2) →
        s.multiPush (some req) cb clock =
          { s.pushSingly cbs clock' out.data.zipIdx with
            answered := s.answered ++ if cb then [.created] else [] } := by
  refine ⟨fun err failed => multiPush_error failed s cb clock, fun out done cbs clock' same => ?_⟩
  rw [multiPush_ok done]
  exact (pushSingly_eq cbs same _ s).symm

/-- Batches without records are not recompacted. -/
def refusing : Wrtstat :=
  ⟨perSecond, onePack, fun req => if req.data = [] then .error "empty" else .ok req⟩

/-- A started aggregator without packer and with a live target. -/
def forwarding : AggregatorDomain refusing :=
  started refusing { targets := ["log"] } (fun _ => true) true

theorem multiPush_refused :
    forwarding.multiPush (some ⟨[]⟩) true (fun _ => 7) = { forwarding with answered := [.failed "empty"] } ∧
    forwarding.multiPush (some ⟨[⟨"cpu", 0, [42], 0⟩, ⟨"cpu", 5, [43], 0⟩]⟩) true (fun _ => 7) =
      { forwarding.pushSingly (fun _ => true) (fun i => if i = 0 then 7 else 8)
          [(⟨"cpu", 0, [42], 0⟩, 0), (⟨"cpu", 5, [43], 0⟩, 1)] with answered := [.created] } :=
  ⟨(multiPush_spec forwarding ⟨[]⟩ true fun _ => 7).1 "empty" rfl,
    (multiPush_spec forwarding ⟨[⟨"cpu", 0, [42], 0⟩, ⟨"cpu", 5, [43], 0⟩]⟩ true fun _ => 7).2 _ rfl
      (fun _ => true) (fun i => if i = 0 then 7 else 8) (by decide)⟩

end WfcCore.Statistics.AggregatorDomain

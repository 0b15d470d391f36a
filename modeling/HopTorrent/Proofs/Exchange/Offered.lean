import HopTorrent.Proofs.Exchange

/-!
# Proofs/Exchange/Offered — an exchange as a function of the bytes it is offered

Over a stream whose peer takes every byte, an exchange is a function of the bytes that the stream
offers: how it comes out, what it says and what it leaves unread (`upon`).  The division of these
bytes into pieces has no part in it (`run_eq_upon`), and the way the stream ends decides only what
becomes of an exchange that waits for more (`Verdict.outcome`).
-/

namespace HopTorrent

namespace Stream

variable {s : Stream} {n : Nat}

/-- No piece is empty: the division into pieces ends nothing early. -/
def Flows (s : Stream) : Prop := ∀ piece ∈ s.feed, piece ≠ []

/-- Why a read fails that needs more than there is; it waits for ever if there is no reason. -/
def shortage (s : Stream) : Option Fault :=
  match s.ending with
  | .eof => some .earlyEof
  | .hang => none
  | .reset => some .reset
  | .afterShutdown => if s.shut then some .earlyEof else none

/-- All that is not read can be read. -/
theorem Flows.offered_eq (h : s.Flows) : s.offered = s.unread := by
  rw [offered, unread]
  unfold Flows at h
  generalize s.feed = pieces at h
  induction pieces with
  | nil => rfl
  | cons piece pieces ih =>
    have hp : piece.isEmpty = false := by simpa using h piece List.mem_cons_self
    rw [offeredBy, hp, if_neg Bool.false_ne_true, List.flatten_cons,
      ih fun p hm => h p (List.mem_cons_of_mem _ hm)]

/-- What is left of a stream is as it was divided. -/
theorem Leaves.flows {heard said : Bytes} {t : Stream} (h : s.Leaves heard said t)
    (hf : s.Flows) : t.Flows := by
  rintro _ hm rfl
  exact hf [] (h.nil_mem_iff.mp hm) rfl

/-- Reading leaves no empty piece behind. -/
theorem ne_nil_of_mem_collect {pieces : List Bytes} (h : ∀ piece ∈ pieces, piece ≠ [])
    (want : Nat) : ∀ piece ∈ (collect pieces want).2, piece ≠ [] := by
  rintro _ hm rfl
  exact h [] ((nil_mem_collect_iff pieces want).mp hm) rfl

/-- Reading past the end uses up every piece. -/
theorem collect_snd_of_lt {pieces : List Bytes} (h : ∀ piece ∈ pieces, piece ≠ []) {want : Nat}
    (hw : pieces.flatten.length < want) : (collect pieces want).2 = [] := by
  refine List.eq_nil_iff_forall_not_mem.mpr fun piece hm => ?_
  have hne := ne_nil_of_mem_collect h want piece hm
  have hsum := congrArg List.length (collect_flatten pieces want)
  have hflows : Flows ⟨pieces, .eof, none, false, [], false, []⟩ := h
  have hoff : offeredBy pieces = pieces.flatten := hflows.offered_eq
  have htake : (collect pieces want).1.length = pieces.flatten.length := by
    rw [(collect_eq pieces want).1, hoff, List.take_of_length_le (Nat.le_of_lt hw)]
  have hzero : (collect pieces want).2.flatten = [] := by
    refine List.eq_nil_of_length_eq_zero ?_
    rw [List.length_append, htake] at hsum
    omega
  exact hne (List.flatten_eq_nil_iff.mp hzero piece hm)

/-- **A read of no more than there is gets it.** -/
theorem Flows.receive_of_le (h : s.Flows) (hn : n ≤ s.unread.length) :
    (s.receive n).1 = .got ⟨(s.unread.take n).toArray, List.length_take_of_le hn⟩
      ∧ (s.receive n).2.unread = s.unread.drop n := by
  obtain ⟨r, t, he, hr, ho, hu, -⟩ := Stream.receive_of_le (s := s) (n := n) (h.offered_eq ▸ hn)
  rw [h.offered_eq] at hr
  rw [he]
  constructor
  · refine congrArg _ (Vector.toList_inj.mp ?_)
    simpa using hr
  · dsimp only
    rw [hr] at hu
    exact (List.append_cancel_left (hu.symm.trans (List.take_append_drop n _).symm))

/-- **A read of more than there is uses it up**, and fails or waits. -/
theorem Flows.receive_of_lt (h : s.Flows) (hn : s.unread.length < n) :
    (s.receive n).1 = (match s.shortage with | some f => .fault f | none => .pending)
      ∧ (s.receive n).2.unread = [] := by
  have hrest := collect_snd_of_lt h hn
  constructor
  · have hl : ¬ (collect s.feed n).1.length = n := by
      have := congrArg List.length (collect_flatten s.feed n)
      rw [hrest, List.flatten_nil, List.append_nil] at this
      rw [this]
      exact Nat.ne_of_lt hn
    rw [receive, dif_neg hl, hrest]
    rw [if_pos (show ([] : List Bytes).isEmpty = true from rfl), atEnd, shortage]
    cases s.ending with
    | eof | hang | reset => rfl
    | afterShutdown =>
      dsimp only
      split <;> rfl
  · rw [receive_snd, unread, hrest, List.flatten_nil]

end Stream

namespace Exchange

variable {α : Type}

/-! ## An exchange over bytes -/

/-- How an exchange comes out that is offered certain bytes. -/
inductive Verdict (α : Type) where
  | done (a : α)
  | failed (e : Error)
  /-- It waits for more bytes than there are; the fault that ends its wait ends it with an error. -/
  | short (onFault : Stream.Fault → Error)

/-- What comes of an exchange over a stream that ends so. -/
def Verdict.outcome (shortage : Option Stream.Fault) : Verdict α → Outcome α
  | done a => .done a
  | failed e => .failed e
  | short onFault =>
    match shortage with
    | some f => .failed (onFault f)
    | none => .pending

/-- How an exchange went: how it came out, what it said, and what it left unread. -/
structure Hearing (α : Type) where
  verdict : Verdict α
  said : Bytes
  rest : Bytes

/-- **An exchange over bytes**, whose peer takes all that is said. -/
def upon : Exchange α → Bytes → Hearing α
  | done a, offer => ⟨.done a, [], offer⟩
  | fail e, offer => ⟨.failed e, [], offer⟩
  | send bs _ next, offer =>
    let h := next.upon offer
    { h with said := bs ++ h.said }
  | recv n onFault next, offer =>
    if h : n ≤ offer.length then
      (next ⟨(offer.take n).toArray, by simp [h]⟩).upon (offer.drop n)
    else ⟨.short onFault, [], []⟩

variable {x : Exchange α} {onFault : Stream.Fault → Error} {offer rest said : Bytes}

@[simp] theorem upon_done (a : α) (offer : Bytes) :
    (Exchange.done a).upon offer = ⟨.done a, [], offer⟩ := rfl

@[simp] theorem upon_fail (e : Error) (offer : Bytes) :
    (Exchange.fail e : Exchange α).upon offer = ⟨.failed e, [], offer⟩ := rfl

@[simp] theorem upon_send (bs : Bytes) (next : Exchange α) (offer : Bytes) :
    (Exchange.send bs onFault next).upon offer
      = { next.upon offer with said := bs ++ (next.upon offer).said } := rfl

/-- A read gets what is offered first. -/
theorem upon_recv {n : Nat} {next : Vector UInt8 n → Exchange α} (r : Vector UInt8 n)
    (offer : Bytes) :
    (Exchange.recv n onFault next).upon (r.toList ++ offer) = (next r).upon offer := by
  have hl : r.toList.length = n := by simp
  have hn : n ≤ (r.toList ++ offer).length := by simp
  have hr : (⟨((r.toList ++ offer).take n).toArray, by simp⟩ : Vector UInt8 n) = r := by
    refine Vector.toList_inj.mp ?_
    simp
  rw [upon, dif_pos hn, hr, List.drop_left' hl]

/-- A read of more than is offered is short of bytes. -/
theorem upon_recv_of_lt {n : Nat} {next : Vector UInt8 n → Exchange α} (h : offer.length < n) :
    (Exchange.recv n onFault next).upon offer = ⟨.short onFault, [], []⟩ := by
  rw [upon, dif_neg (Nat.not_le_of_lt h)]

/-- **A read gets its bytes or is short of them.** -/
theorem upon_recv_cases {n : Nat} (next : Vector UInt8 n → Exchange α) (offer : Bytes) :
    (∃ r offer', offer = r.toList ++ offer'
        ∧ (Exchange.recv n onFault next).upon offer = (next r).upon offer')
      ∨ offer.length < n
        ∧ (Exchange.recv n onFault next).upon offer = ⟨.short onFault, [], []⟩ := by
  by_cases hn : n ≤ offer.length
  · obtain ⟨r, hr⟩ := exists_toList_eq (List.length_take_of_le hn)
    have ho : offer = r.toList ++ offer.drop n := by rw [hr, List.take_append_drop]
    exact .inl ⟨r, offer.drop n, ho, by rw [← upon_recv, ← ho]⟩
  · exact .inr ⟨Nat.lt_of_not_le hn, upon_recv_of_lt (Nat.lt_of_not_le hn)⟩

/-- A read after which nothing is said says nothing. -/
theorem said_recv {n : Nat} {next : Vector UInt8 n → Exchange α}
    (h : ∀ r offer, ((next r).upon offer).said = []) (offer : Bytes) :
    ((Exchange.recv n onFault next).upon offer).said = [] := by
  obtain ⟨r, offer', -, hu⟩ | ⟨-, hu⟩ := upon_recv_cases next offer <;> rw [hu]
  exact h r offer'

@[simp] theorem upon_recvOne (next : UInt8 → Exchange α) (a : UInt8) (offer : Bytes) :
    (recvOne onFault next).upon (a :: offer) = (next a).upon offer :=
  upon_recv #v[a] offer

@[simp] theorem upon_recvTwo (next : UInt8 → UInt8 → Exchange α) (a b : UInt8) (offer : Bytes) :
    (recvTwo onFault next).upon (a :: b :: offer) = (next a b).upon offer :=
  upon_recv #v[a, b] offer

@[simp] theorem upon_recvFour (next : UInt8 → UInt8 → UInt8 → UInt8 → Exchange α)
    (a b c d : UInt8) (offer : Bytes) :
    (recvFour onFault next).upon (a :: b :: c :: d :: offer) = (next a b c d).upon offer :=
  upon_recv #v[a, b, c, d] offer

/-- A read of one byte gets it or is short of it. -/
theorem upon_recvOne_cases (next : UInt8 → Exchange α) (offer : Bytes) :
    (∃ a offer', offer = a :: offer' ∧ (recvOne onFault next).upon offer = (next a).upon offer')
      ∨ offer.length < 1 ∧ (recvOne onFault next).upon offer = ⟨.short onFault, [], []⟩ := by
  refine (upon_recv_cases (fun r => next r[0]) offer).imp_left ?_
  rintro ⟨r, offer', rfl, hu⟩
  obtain ⟨a, rfl⟩ := eq_one r
  exact ⟨a, offer', rfl, hu⟩

/-- A read of two bytes gets them or is short of them. -/
theorem upon_recvTwo_cases (next : UInt8 → UInt8 → Exchange α) (offer : Bytes) :
    (∃ a b offer', offer = a :: b :: offer'
        ∧ (recvTwo onFault next).upon offer = (next a b).upon offer')
      ∨ offer.length < 2 ∧ (recvTwo onFault next).upon offer = ⟨.short onFault, [], []⟩ := by
  refine (upon_recv_cases (fun r => next r[0] r[1]) offer).imp_left ?_
  rintro ⟨r, offer', rfl, hu⟩
  obtain ⟨a, b, rfl⟩ := eq_two r
  exact ⟨a, b, offer', rfl, hu⟩

/-- A read of four bytes gets them or is short of them. -/
theorem upon_recvFour_cases (next : UInt8 → UInt8 → UInt8 → UInt8 → Exchange α) (offer : Bytes) :
    (∃ a b c d offer', offer = a :: b :: c :: d :: offer'
        ∧ (recvFour onFault next).upon offer = (next a b c d).upon offer')
      ∨ offer.length < 4 ∧ (recvFour onFault next).upon offer = ⟨.short onFault, [], []⟩ := by
  refine (upon_recv_cases (fun r => next r[0] r[1] r[2] r[3]) offer).imp_left ?_
  rintro ⟨r, offer', rfl, hu⟩
  obtain ⟨a, b, c, d, rfl⟩ := eq_four r
  exact ⟨a, b, c, d, offer', rfl, hu⟩

/-- A result after a write. -/
theorem upon_send_eq_done_iff {bs : Bytes} {next : Exchange α} {a : α} :
    (Exchange.send bs onFault next).upon offer = ⟨.done a, said, rest⟩
      ↔ ∃ said', said = bs ++ said' ∧ next.upon offer = ⟨.done a, said', rest⟩ := by
  rw [upon_send]
  rcases next.upon offer with ⟨v, said', rest'⟩
  simp only [Hearing.mk.injEq]
  constructor
  · rintro ⟨rfl, rfl, rfl⟩
    exact ⟨_, rfl, rfl, rfl, rfl⟩
  · rintro ⟨_, rfl, rfl, rfl, rfl⟩
    exact ⟨rfl, rfl, rfl⟩

/-- A result after a read. -/
theorem upon_recv_eq_done_iff {n : Nat} {next : Vector UInt8 n → Exchange α} {a : α} :
    (Exchange.recv n onFault next).upon offer = ⟨.done a, said, rest⟩
      ↔ ∃ r offer', offer = r.toList ++ offer' ∧ (next r).upon offer' = ⟨.done a, said, rest⟩ := by
  constructor
  · intro h
    by_cases hn : n ≤ offer.length
    · let r : Vector UInt8 n := ⟨(offer.take n).toArray, by simp [hn]⟩
      have ho : offer = r.toList ++ offer.drop n := by simp [r]
      rw [ho, upon_recv] at h
      exact ⟨r, _, ho, h⟩
    · rw [upon_recv_of_lt (Nat.lt_of_not_le hn)] at h
      cases h
  · rintro ⟨r, offer', rfl, h⟩
    rw [upon_recv, h]

/-- **An exchange comes to a result over the bytes of the dialogues that it comes to a result
with.** -/
theorem upon_eq_done_iff {a : α} :
    x.upon offer = ⟨.done a, said, rest⟩
      ↔ ∃ tr, x.Completes tr a ∧ Transcript.sent tr = said
        ∧ offer = Transcript.heard tr ++ rest := by
  induction x generalizing offer said with
  | done b =>
    simp only [upon_done, Hearing.mk.injEq, Verdict.done.injEq, completes_done_iff]
    constructor
    · rintro ⟨rfl, rfl, rfl⟩
      exact ⟨[], ⟨rfl, rfl⟩, rfl, rfl⟩
    · rintro ⟨_, ⟨rfl, rfl⟩, rfl, rfl⟩
      exact ⟨rfl, rfl, rfl⟩
  | fail e => simp
  | send bs onFault next ih =>
    simp only [upon_send_eq_done_iff, ih, completes_send_iff]
    constructor
    · rintro ⟨_, rfl, tr, hc, rfl, ho⟩
      exact ⟨_, ⟨tr, rfl, hc⟩, rfl, ho⟩
    · rintro ⟨_, ⟨tr, rfl, hc⟩, rfl, ho⟩
      exact ⟨_, rfl, tr, hc, rfl, ho⟩
  | recv n onFault next ih =>
    simp only [upon_recv_eq_done_iff, ih, completes_recv_iff]
    constructor
    · rintro ⟨r, _, rfl, tr, hc, hs, rfl⟩
      exact ⟨_, ⟨r, tr, rfl, hc⟩, hs, by rw [Transcript.heard_cons_heard, List.append_assoc]⟩
    · rintro ⟨_, ⟨r, tr, rfl, hc⟩, hs, rfl⟩
      exact ⟨r, _, by rw [Transcript.heard_cons_heard, List.append_assoc], tr, hc, hs, rfl⟩

/-- A result after a read of one byte. -/
theorem upon_recvOne_eq_done_iff {next : UInt8 → Exchange α} {a : α} :
    (recvOne onFault next).upon offer = ⟨.done a, said, rest⟩
      ↔ ∃ b offer', offer = b :: offer' ∧ (next b).upon offer' = ⟨.done a, said, rest⟩ := by
  rw [recvOne, upon_recv_eq_done_iff]
  constructor
  · rintro ⟨r, offer', rfl, h⟩
    obtain ⟨b, rfl⟩ := eq_one r
    exact ⟨b, offer', rfl, h⟩
  · rintro ⟨b, offer', rfl, h⟩
    exact ⟨#v[b], offer', rfl, h⟩

/-- A result after a read of two bytes. -/
theorem upon_recvTwo_eq_done_iff {next : UInt8 → UInt8 → Exchange α} {a : α} :
    (recvTwo onFault next).upon offer = ⟨.done a, said, rest⟩
      ↔ ∃ b c offer', offer = b :: c :: offer'
        ∧ (next b c).upon offer' = ⟨.done a, said, rest⟩ := by
  rw [recvTwo, upon_recv_eq_done_iff]
  constructor
  · rintro ⟨r, offer', rfl, h⟩
    obtain ⟨b, c, rfl⟩ := eq_two r
    exact ⟨b, c, offer', rfl, h⟩
  · rintro ⟨b, c, offer', rfl, h⟩
    exact ⟨#v[b, c], offer', rfl, h⟩

/-- A result after a read of four bytes. -/
theorem upon_recvFour_eq_done_iff {next : UInt8 → UInt8 → UInt8 → UInt8 → Exchange α} {a : α} :
    (recvFour onFault next).upon offer = ⟨.done a, said, rest⟩
      ↔ ∃ b c d e offer', offer = b :: c :: d :: e :: offer'
        ∧ (next b c d e).upon offer' = ⟨.done a, said, rest⟩ := by
  rw [recvFour, upon_recv_eq_done_iff]
  constructor
  · rintro ⟨r, offer', rfl, h⟩
    obtain ⟨b, c, d, e, rfl⟩ := eq_four r
    exact ⟨b, c, d, e, offer', rfl, h⟩
  · rintro ⟨b, c, d, e, offer', rfl, h⟩
    exact ⟨#v[b, c, d, e], offer', rfl, h⟩

/-- **What is said by one exchange after another.** -/
theorem said_bind {β : Type} (x : Exchange α) (f : α → Exchange β) (offer : Bytes) :
    ((x.bind f).upon offer).said = (x.upon offer).said ++
      match (x.upon offer).verdict with
      | .done a => ((f a).upon (x.upon offer).rest).said
      | _ => [] := by
  induction x generalizing offer with
  | done a => rfl
  | fail e => rfl
  | send bs onFault next ih =>
    rw [bind, upon_send, upon_send, List.append_assoc]
    exact congrArg (bs ++ ·) (ih offer)
  | recv n onFault next ih =>
    rw [bind, upon, upon]
    split
    · exact ih _ _
    · rfl

/-- **What is said is not taken back**: who is offered more says the same first. -/
theorem said_mono (x : Exchange α) {early : Bytes} (h : early <+: offer) :
    (x.upon early).said <+: (x.upon offer).said := by
  induction x generalizing early offer with
  | done a => exact List.prefix_rfl
  | fail e => exact List.prefix_rfl
  | send bs onFault next ih => exact (List.prefix_append_right_inj bs).mpr (ih h)
  | recv n onFault next ih =>
    obtain ⟨r, early', rfl, hu⟩ | ⟨-, hu⟩ := upon_recv_cases next early
    · obtain ⟨more, rfl⟩ := h
      rw [hu, List.append_assoc, upon_recv]
      exact ih r (List.prefix_append early' more)
    · rw [hu]
      exact List.nil_prefix

/-! ## An exchange over a stream -/

/-- **An exchange comes to a result over a stream** exactly when the stream carries a dialogue that
it comes to this result with. -/
theorem run_eq_done_iff {a : α} {s t : Stream} :
    x.run s = (.done a, t) ↔ ∃ tr, x.Completes tr a ∧ s.Carries tr t := by
  constructor
  · intro h
    induction x generalizing s with
    | done b =>
      obtain ⟨hb, rfl⟩ := Prod.mk.inj h
      exact ⟨[], Outcome.done.inj hb ▸ .done b, .nil s⟩
    | fail e => cases (Prod.mk.inj h).1
    | send bs onFault next ih =>
      rw [run] at h
      split at h
      · rename_i s' hs
        obtain ⟨tr, hc, hk⟩ := ih h
        exact ⟨_, .send hc, .sent hs hk⟩
      · cases (Prod.mk.inj h).1
    | recv n onFault next ih =>
      rw [run] at h
      split at h
      · rename_i r s' hs
        obtain ⟨tr, hc, hk⟩ := ih r h
        exact ⟨_, .recv hc, .heard hs hk⟩
      · cases (Prod.mk.inj h).1
      · cases (Prod.mk.inj h).1
  · rintro ⟨tr, hc, hk⟩
    induction hc generalizing s with
    | done b =>
      cases hk
      rfl
    | send _ ih =>
      cases hk with
      | sent hs hk =>
        rw [run, hs]
        exact ih hk
    | recv _ ih =>
      obtain ⟨s', hs, hk⟩ := hk.exists_receive
      rw [run, hs]
      exact ih hk

/-- **Over a stream that offers its bytes** an exchange comes to its result, if the peer takes what
it says. -/
theorem exists_run_eq_done {a : α} {s : Stream} (h : x.upon s.offered = ⟨.done a, said, rest⟩)
    (ht : s.Takes said.length) :
    ∃ t heard, x.run s = (.done a, t) ∧ s.offered = heard ++ rest ∧ s.Leaves heard said t := by
  obtain ⟨tr, hc, rfl, ho⟩ := upon_eq_done_iff.mp h
  obtain ⟨t, hk⟩ := Stream.exists_carries_iff.mpr ⟨⟨rest, ho.symm⟩, ht⟩
  exact ⟨t, tr.heard, run_eq_done_iff.mpr ⟨tr, hc, hk⟩, ho, hk.leaves⟩

/-- **Over bytes that a stream offers** an exchange comes to the result that it comes to over the
stream. -/
theorem upon_of_run_eq_done {a : α} {s t : Stream} (h : x.run s = (.done a, t)) :
    ∃ heard said, x.upon s.offered = ⟨.done a, said, t.offered⟩ ∧ s.Takes said.length
      ∧ s.Leaves heard said t := by
  obtain ⟨tr, hc, hk⟩ := run_eq_done_iff.mp h
  exact ⟨tr.heard, tr.sent, upon_eq_done_iff.mpr ⟨tr, hc, rfl, hk.leaves.offered⟩,
    (Stream.exists_carries_iff.mp ⟨t, hk⟩).2, hk.leaves⟩

/-- **What an exchange says over a stream** is the beginning of what it says over the bytes that the
stream offers, and all of it if the peer takes as much. -/
theorem exists_said (x : Exchange α) (s : Stream) :
    ∃ part, part <+: (x.upon s.offered).said ∧ (x.run s).2.wrote = s.wrote ++ part
      ∧ (s.Takes (x.upon s.offered).said.length → part = (x.upon s.offered).said) := by
  induction x generalizing s with
  | done a => exact ⟨[], List.nil_prefix, (List.append_nil _).symm, fun _ => rfl⟩
  | fail e => exact ⟨[], List.nil_prefix, (List.append_nil _).symm, fun _ => rfl⟩
  | send bs onFault next ih =>
    rw [upon_send, run]
    by_cases ht : s.Takes bs.length
    · obtain ⟨t, hs, hw, hf, htakes, -⟩ := Stream.send_of_takes ht
      obtain ⟨part, hp, hwrote, hall⟩ := ih t
      have ho : t.offered = s.offered := congrArg Stream.offeredBy hf
      rw [ho] at hp hall
      rw [hs]
      refine ⟨bs ++ part, (List.prefix_append_right_inj bs).mpr hp, ?_, fun htake => ?_⟩
      · rw [hwrote, hw, List.append_assoc]
      · rw [List.length_append] at htake
        rw [hall ((htakes _).mpr htake)]
    · obtain ⟨f, t, part, hs, hp, hw, -⟩ := Stream.send_of_not_takes ht
      rw [hs]
      refine ⟨part, hp.trans (List.prefix_append _ _), hw, fun htake => absurd ?_ ht⟩
      exact htake.mono (by rw [List.length_append]; exact Nat.le_add_right _ _)
  | recv n onFault next ih =>
    rw [upon, run]
    by_cases hn : n ≤ s.offered.length
    · obtain ⟨r, t, hs, hr, ho, -, hw, hb, -⟩ := Stream.receive_of_le hn
      have hr' : (⟨(s.offered.take n).toArray, by simp [hn]⟩ : Vector UInt8 n) = r :=
        Vector.toList_inj.mp (by simp [hr])
      obtain ⟨part, hp, hwrote, hall⟩ := ih r t
      rw [dif_pos hn, hs, hr', ← ho]
      exact ⟨part, hp, hwrote.trans (by rw [hw]), fun htake => hall (by rwa [Stream.Takes, hb])⟩
    · obtain ⟨t, ⟨f, hs⟩ | hs, -, hw⟩ := Stream.receive_of_lt (Nat.lt_of_not_le hn) <;>
        rw [dif_neg hn, hs] <;>
        exact ⟨[], List.nil_prefix, by rw [hw, List.append_nil], fun _ => rfl⟩

/-- Over a stream, a read of no more than is offered gets it. -/
theorem run_recv_of_le {n : Nat} {next : Vector UInt8 n → Exchange α} {s : Stream} (hf : s.Flows)
    (hn : n ≤ s.unread.length) :
    (Exchange.recv n onFault next).run s
      = (next ⟨(s.unread.take n).toArray, List.length_take_of_le hn⟩).run (s.receive n).2 := by
  have hgot := (hf.receive_of_le hn).1
  rw [run]
  rcases hr : s.receive n with ⟨o, t⟩
  rw [hr] at hgot
  obtain rfl : o = _ := hgot
  rfl

/-- Over a stream, a read of more than is offered fails where the stream ends. -/
theorem run_recv_of_lt {n : Nat} {next : Vector UInt8 n → Exchange α} {s : Stream} (hf : s.Flows)
    (hn : s.unread.length < n) :
    (Exchange.recv n onFault next).run s
      = ((Verdict.short onFault).outcome s.shortage, (s.receive n).2) := by
  have hfault := (hf.receive_of_lt hn).1
  rw [run]
  rcases hr : s.receive n with ⟨o, t⟩
  rw [hr] at hfault
  obtain rfl : o = _ := hfault
  cases s.shortage <;> rfl

/-- **Over a stream an exchange is a function of what the stream offers.**  Let the peer take every
byte.  However the bytes are divided into pieces, the exchange comes out, says and leaves unread
what it does over the bytes themselves. -/
theorem run_eq_upon (x : Exchange α) {s : Stream} (hf : s.Flows) (hb : s.budget = none) :
    (x.run s).1 = (x.upon s.unread).verdict.outcome s.shortage
      ∧ (x.run s).2.wrote = s.wrote ++ (x.upon s.unread).said
      ∧ (x.run s).2.unread = (x.upon s.unread).rest := by
  induction x generalizing s with
  | done a => exact ⟨rfl, (List.append_nil _).symm, rfl⟩
  | fail e => exact ⟨rfl, (List.append_nil _).symm, rfl⟩
  | send bs onFault next ih =>
    let t : Stream := { s with wrote := s.wrote ++ bs, pauses := s.pauses.tail }
    have hs : s.send bs = (none, t) := by simp only [Stream.send, hb, t]
    have ht : t.unread = s.unread := rfl
    obtain ⟨ho, hw, hu⟩ := ih (s := t) hf hb
    rw [ht] at ho hw hu
    rw [run, hs]
    refine ⟨ho, ?_, hu⟩
    rw [upon_send]
    exact hw.trans (List.append_assoc ..)
  | recv n onFault next ih =>
    have hsnd := s.receive_snd n
    have hwrote : (s.receive n).2.wrote = s.wrote := by rw [hsnd]
    by_cases hn : n ≤ s.unread.length
    · have hflows : (s.receive n).2.Flows := by
        rw [hsnd]
        exact Stream.ne_nil_of_mem_collect hf n
      have hbudget : (s.receive n).2.budget = none := by rw [hsnd, hb]
      have hshort : (s.receive n).2.shortage = s.shortage := by rw [hsnd]; rfl
      obtain ⟨ho, hw, hu⟩ := ih ⟨(s.unread.take n).toArray, by simp [hn]⟩ hflows hbudget
      rw [(hf.receive_of_le hn).2] at ho hw hu
      rw [run_recv_of_le hf hn, upon, dif_pos hn, ho, hw, hu, hshort, hwrote]
      exact ⟨rfl, rfl, rfl⟩
    · have hlt := Nat.lt_of_not_le hn
      rw [upon_recv_of_lt hlt, run_recv_of_lt hf hlt]
      exact ⟨rfl, hwrote.trans (List.append_nil _).symm, (hf.receive_of_lt hlt).2⟩

end Exchange

end HopTorrent

import HopTorrent.Stream
import Mathlib.Algebra.GroupWithZero.Nat

/-!
# Proofs/Stream/Carries — the dialogues that a stream carries

A dialogue over a stream is a list of turns: bytes sent and bytes heard.  Which dialogues a stream
carries does not depend on the division of its feed into pieces: what is heard must be what the
stream offers, and what is sent must be no more than the peer takes (`exists_carries_iff`).
-/

namespace HopTorrent

/-- One turn of a dialogue. -/
inductive Turn where
  | sent (bytes : Bytes)
  | heard (bytes : Bytes)

/-- A dialogue, turn by turn. -/
abbrev Transcript := List Turn

namespace Transcript

/-- Everything that was sent. -/
def sent (tr : Transcript) : Bytes :=
  tr.flatMap fun
    | .sent bs => bs
    | .heard _ => []

/-- Everything that was heard. -/
def heard (tr : Transcript) : Bytes :=
  tr.flatMap fun
    | .sent _ => []
    | .heard bs => bs

variable (tr : Transcript) (bs : Bytes)

@[simp] theorem sent_nil : sent [] = [] := rfl
@[simp] theorem heard_nil : heard [] = [] := rfl
@[simp] theorem sent_cons_sent : sent (.sent bs :: tr) = bs ++ sent tr := rfl
@[simp] theorem heard_cons_sent : heard (.sent bs :: tr) = heard tr := rfl
@[simp] theorem sent_cons_heard : sent (.heard bs :: tr) = sent tr := rfl
@[simp] theorem heard_cons_heard : heard (.heard bs :: tr) = bs ++ heard tr := rfl

@[simp] theorem sent_append (ur : Transcript) : sent (tr ++ ur) = sent tr ++ sent ur :=
  List.flatMap_append

@[simp] theorem heard_append (ur : Transcript) : heard (tr ++ ur) = heard tr ++ heard ur :=
  List.flatMap_append

end Transcript

namespace Stream

variable {s s' s'' : Stream} {tr : Transcript} {bs : Bytes} {n : Nat}

/-! ## What a stream offers and takes -/

/-- What can be read of some pieces: an empty one ends it. -/
def offeredBy : List Bytes → Bytes
  | [] => []
  | piece :: pieces => if piece.isEmpty then [] else piece ++ offeredBy pieces

/-- What can be read of a stream. -/
def offered (s : Stream) : Bytes := offeredBy s.feed

/-- The peer takes so many more bytes. -/
def Takes (s : Stream) (n : Nat) : Prop := ∀ k, s.budget = some k → n ≤ k

/-- Reading takes the beginning of what is offered, and leaves the rest of it. -/
theorem collect_eq (pieces : List Bytes) (want : Nat) :
    (collect pieces want).1 = (offeredBy pieces).take want
      ∧ offeredBy (collect pieces want).2 = (offeredBy pieces).drop want := by
  induction pieces generalizing want with
  | nil => cases want <;> simp [collect, offeredBy]
  | cons piece pieces ih =>
    cases want with
    | zero => simp [collect]
    | succ want =>
      by_cases hp : piece.isEmpty
      · simp [collect, offeredBy, hp]
      · by_cases hw : want + 1 < piece.length
        · have hd : piece.drop (want + 1) ≠ [] := by simpa using hw
          simp [collect, offeredBy, hp, hw, hd, List.take_append_of_le_length (Nat.le_of_lt hw),
            List.drop_append_of_le_length (Nat.le_of_lt hw)]
        · have hle : piece.length ≤ want + 1 := Nat.le_of_not_lt hw
          obtain ⟨h₁, h₂⟩ := ih (want + 1 - piece.length)
          simp [collect, offeredBy, hp, hw, h₁, h₂, List.take_append, List.drop_append,
            List.take_of_length_le hle, List.drop_of_length_le hle]

/-- Reading loses nothing. -/
theorem collect_flatten (pieces : List Bytes) (want : Nat) :
    (collect pieces want).1 ++ (collect pieces want).2.flatten = pieces.flatten := by
  induction pieces generalizing want with
  | nil => cases want <;> simp [collect]
  | cons piece pieces ih =>
    cases want with
    | zero => simp [collect]
    | succ want =>
      by_cases hp : piece.isEmpty
      · simp [collect, hp]
      · by_cases hw : want + 1 < piece.length
        · simp [collect, hp, hw, ← List.append_assoc]
        · simp [collect, hp, hw, List.append_assoc, ih]

/-- Reading stops in front of an empty piece, and makes none. -/
theorem nil_mem_collect_iff (pieces : List Bytes) (want : Nat) :
    [] ∈ (collect pieces want).2 ↔ [] ∈ pieces := by
  induction pieces generalizing want with
  | nil => cases want <;> simp [collect]
  | cons piece pieces ih =>
    cases want with
    | zero => simp [collect]
    | succ want =>
      by_cases hp : piece = []
      · simp [collect, hp]
      · by_cases hw : want + 1 < piece.length
        · have hd : piece.drop (want + 1) ≠ [] := by simpa using hw
          simp [collect, hp, hw, hd.symm, Ne.symm hp]
        · simp [collect, hp, hw, ih, Ne.symm hp]

/-- **A read succeeds when enough is offered**, and takes the beginning of that. -/
theorem receive_of_le (h : n ≤ s.offered.length) :
    ∃ r s', s.receive n = (.got r, s') ∧ r.toList = s.offered.take n
      ∧ s'.offered = s.offered.drop n ∧ s.unread = r.toList ++ s'.unread
      ∧ s'.wrote = s.wrote ∧ s'.budget = s.budget ∧ s'.pauses = s.pauses.tail := by
  obtain ⟨h₁, h₂⟩ := collect_eq s.feed n
  have hl : (collect s.feed n).1.length = n := by
    rw [h₁, List.length_take]
    exact Nat.min_eq_left h
  refine ⟨⟨(collect s.feed n).1.toArray, by simp [hl]⟩,
    { s with feed := (collect s.feed n).2, pauses := s.pauses.tail }, by rw [receive, dif_pos hl],
    ?_, h₂, ?_, rfl, rfl, rfl⟩
  · simpa [offered] using h₁
  · simpa [unread] using (collect_flatten s.feed n).symm

/-- A read of more than is offered fails or never ends, and uses up what is offered. -/
theorem receive_of_lt (h : s.offered.length < n) :
    ∃ s', ((∃ f, s.receive n = (.fault f, s')) ∨ s.receive n = (.pending, s'))
      ∧ s.unread = s.offered ++ s'.unread ∧ s'.wrote = s.wrote := by
  obtain ⟨h₁, -⟩ := collect_eq s.feed n
  have hall : (collect s.feed n).1 = s.offered := by
    rw [h₁]
    exact List.take_of_length_le (Nat.le_of_lt h)
  have hl : ¬ (collect s.feed n).1.length = n := by
    rw [hall]
    exact Nat.ne_of_lt h
  refine ⟨{ s with feed := (collect s.feed n).2, pauses := s.pauses.tail }, ?_, ?_, rfl⟩
  · rw [receive, dif_neg hl]
    split
    · rw [atEnd]
      split
      · exact .inl ⟨_, rfl⟩
      · exact .inr rfl
      · exact .inl ⟨_, rfl⟩
      · split
        · exact .inl ⟨_, rfl⟩
        · exact .inr rfl
    · exact .inl ⟨_, rfl⟩
  · rw [← hall]
    exact (collect_flatten s.feed n).symm

/-- What a read does not change. -/
theorem receive_snd (s : Stream) (n : Nat) :
    (s.receive n).2 = { s with feed := (collect s.feed n).2, pauses := s.pauses.tail } := by
  rw [receive]
  split
  · rfl
  · split <;> rfl

/-- **A write succeeds when the peer takes as much.** -/
theorem send_of_takes (h : s.Takes bs.length) :
    ∃ s', s.send bs = (none, s') ∧ s'.wrote = s.wrote ++ bs ∧ s'.feed = s.feed
      ∧ (∀ n, s'.Takes n ↔ s.Takes (bs.length + n)) ∧ s'.pauses = s.pauses.tail := by
  rw [send]
  cases hb : s.budget with
  | none => exact ⟨_, rfl, rfl, rfl, by simp [Takes, hb], rfl⟩
  | some k =>
    have hk : bs.length ≤ k := h k hb
    refine ⟨{ s with
      wrote := s.wrote ++ bs, budget := some (k - bs.length), pauses := s.pauses.tail },
      by simp only [if_pos hk], rfl, rfl, fun n => ?_, rfl⟩
    simp only [Takes, hb, Option.some.injEq, forall_eq']
    omega

/-- A write of more than the peer takes fails, having written the beginning. -/
theorem send_of_not_takes (h : ¬ s.Takes bs.length) :
    ∃ f s' part, s.send bs = (some f, s') ∧ part <+: bs ∧ s'.wrote = s.wrote ++ part
      ∧ s'.feed = s.feed := by
  cases hb : s.budget with
  | none => exact absurd (by simp [Takes, hb]) h
  | some k =>
    have hk : ¬ bs.length ≤ k := fun hk => h fun j hj => by
      rw [hb] at hj
      exact Option.some.inj hj ▸ hk
    refine ⟨if s.stalls then .writeZero else .brokenPipe,
      { s with wrote := s.wrote ++ bs.take k, budget := some 0, pauses := s.pauses.tail },
      bs.take k, ?_, List.take_prefix .., rfl, rfl⟩
    rw [send, hb]
    simp only [if_neg hk]

/-! ## Dialogues -/

/-- **A stream carries a dialogue**: every write is taken, every read gets its bytes, and the stream
is left as stated. -/
inductive Carries : Stream → Transcript → Stream → Prop
  | nil (s : Stream) : Carries s [] s
  | sent {s s' s'' : Stream} {bs : Bytes} {tr : Transcript} (h : s.send bs = (none, s'))
      (k : Carries s' tr s'') : Carries s (.sent bs :: tr) s''
  | heard {s s' s'' : Stream} {n : Nat} {r : Vector UInt8 n} {tr : Transcript}
      (h : s.receive n = (.got r, s')) (k : Carries s' tr s'') :
    Carries s (.heard r.toList :: tr) s''

/-- How long a dialogue takes. -/
def duration (s : Stream) (tr : Transcript) : Nat := (s.pauses.take tr.length).sum

/-- A dialogue that begins with a read of some bytes. -/
theorem Carries.exists_receive {r : Vector UInt8 n} (h : s.Carries (.heard r.toList :: tr) s'') :
    ∃ s', s.receive n = (.got r, s') ∧ s'.Carries tr s'' := by
  generalize hb : r.toList = bs at h
  cases h with
  | @heard _ s' _ m r' _ h k =>
    obtain rfl : n = m := by simpa using congrArg List.length hb
    obtain rfl : r = r' := Vector.toList_inj.mp hb
    exact ⟨s', h, k⟩

/-- What is sent is written behind what was written. -/
theorem send_eq_none (h : s.send bs = (none, s')) :
    s.Takes bs.length ∧ s'.wrote = s.wrote ++ bs ∧ s'.feed = s.feed
      ∧ (∀ n, s'.Takes n ↔ s.Takes (bs.length + n)) ∧ s'.pauses = s.pauses.tail := by
  by_cases ht : s.Takes bs.length
  · obtain ⟨t, he, ht'⟩ := send_of_takes ht
    obtain rfl : t = s' := congrArg Prod.snd (he.symm.trans h)
    exact ⟨ht, ht'⟩
  · obtain ⟨f, t, part, he, -⟩ := send_of_not_takes ht
    cases he.symm.trans h

/-- A write that fails wrote the beginning of what was to be sent. -/
theorem send_eq_some {f : Fault} (h : s.send bs = (some f, s')) :
    ∃ part, part <+: bs ∧ s'.wrote = s.wrote ++ part ∧ s'.feed = s.feed := by
  by_cases ht : s.Takes bs.length
  · obtain ⟨t, he, -⟩ := send_of_takes ht
    cases he.symm.trans h
  · obtain ⟨g, t, part, he, ht'⟩ := send_of_not_takes ht
    obtain rfl : t = s' := congrArg Prod.snd (he.symm.trans h)
    exact ⟨part, ht'⟩

/-- What is heard was offered first. -/
theorem receive_eq_got {r : Vector UInt8 n} (h : s.receive n = (.got r, s')) :
    s.offered = r.toList ++ s'.offered ∧ s.unread = r.toList ++ s'.unread ∧ s'.wrote = s.wrote
      ∧ s'.budget = s.budget ∧ s'.pauses = s.pauses.tail := by
  by_cases hl : n ≤ s.offered.length
  · obtain ⟨r', t, he, hr, ho, hu, hw, hb, hp⟩ := receive_of_le hl
    obtain ⟨h₁, rfl⟩ := Prod.mk.inj (he.symm.trans h)
    obtain rfl := Reception.got.inj h₁
    exact ⟨by rw [hr, ho, List.take_append_drop], hu, hw, hb, hp⟩
  · obtain ⟨t, ⟨f, he⟩ | he, -⟩ := receive_of_lt (Nat.lt_of_not_le hl) <;> cases he.symm.trans h

/-- A read that does not succeed uses up what was offered, which was not enough. -/
theorem receive_ne_got {o : Reception n} (h : s.receive n = (o, s')) (ho : ∀ r, o ≠ .got r) :
    s.offered.length < n ∧ s.unread = s.offered ++ s'.unread ∧ s'.wrote = s.wrote := by
  by_cases hl : n ≤ s.offered.length
  · obtain ⟨r, t, he, -⟩ := receive_of_le hl
    exact absurd (congrArg Prod.fst (he.symm.trans h)).symm (ho r)
  · have hlt := Nat.lt_of_not_le hl
    obtain ⟨t, ⟨f, he⟩ | he, ht⟩ := receive_of_lt hlt <;>
      obtain rfl : t = s' := congrArg Prod.snd (he.symm.trans h) <;> exact ⟨hlt, ht⟩

/-- A turn takes the first pause, and the dialogue goes on with the others. -/
theorem duration_cons (t : Turn) (tr : Transcript) (h : s'.pauses = s.pauses.tail) :
    s.duration (t :: tr) = s.pause + s'.duration tr := by
  rw [duration, duration, pause, h]
  cases s.pauses <;> simp

/-- **What is left of a stream** that some bytes were heard from, and some were said to. -/
structure Leaves (s : Stream) (heard said : Bytes) (s' : Stream) : Prop where
  offered : s.offered = heard ++ s'.offered
  unread : s.unread = heard ++ s'.unread
  wrote : s'.wrote = s.wrote ++ said
  takes_iff : ∀ m, s'.Takes m ↔ s.Takes (said.length + m)
  nil_mem_iff : [] ∈ s'.feed ↔ [] ∈ s.feed
  ending : s'.ending = s.ending
  shut : s'.shut = s.shut

/-- Nothing happened. -/
theorem Leaves.refl (s : Stream) : s.Leaves [] [] s :=
  ⟨rfl, rfl, (List.append_nil _).symm, fun m => by simp, .rfl, rfl, rfl⟩

/-- One thing after another. -/
theorem Leaves.trans {heard said heard' said' : Bytes} (h : s.Leaves heard said s')
    (h' : s'.Leaves heard' said' s'') : s.Leaves (heard ++ heard') (said ++ said') s'' where
  offered := by rw [h.offered, h'.offered, List.append_assoc]
  unread := by rw [h.unread, h'.unread, List.append_assoc]
  wrote := by rw [h'.wrote, h.wrote, List.append_assoc]
  takes_iff m := by rw [h'.takes_iff, h.takes_iff, List.length_append, Nat.add_assoc]
  nil_mem_iff := h'.nil_mem_iff.trans h.nil_mem_iff
  ending := h'.ending.trans h.ending
  shut := h'.shut.trans h.shut

/-- After a write. -/
theorem leaves_send (h : s.send bs = (none, s')) : s.Leaves [] bs s' := by
  obtain ⟨-, hw, hf, ht, -⟩ := send_eq_none h
  have hrest : s'.ending = s.ending ∧ s'.shut = s.shut := by
    rw [send] at h
    split at h
    · exact (Prod.mk.inj h).2 ▸ ⟨rfl, rfl⟩
    · split at h
      · exact (Prod.mk.inj h).2 ▸ ⟨rfl, rfl⟩
      · cases (Prod.mk.inj h).1
  exact ⟨by rw [offered, offered, hf, List.nil_append],
    by rw [unread, unread, hf, List.nil_append], hw, ht, by rw [hf], hrest.1, hrest.2⟩

/-- After a read. -/
theorem leaves_receive {r : Vector UInt8 n} (h : s.receive n = (.got r, s')) :
    s.Leaves r.toList [] s' := by
  obtain ⟨ho, hu, hw, hb, -⟩ := receive_eq_got h
  have hs : s' = { s with feed := (collect s.feed n).2, pauses := s.pauses.tail } := by
    rw [← receive_snd, h]
  refine ⟨ho, hu, hw.trans (List.append_nil _).symm, fun m => ?_, ?_, ?_, ?_⟩
  · rw [Takes, Takes, hb, List.length_nil, Nat.zero_add]
  · rw [hs]
    exact nil_mem_collect_iff s.feed n
  · rw [hs]
  · rw [hs]

/-- **What a dialogue leaves**: what was heard is gone, and what was sent was written, in order. -/
theorem Carries.leaves (h : s.Carries tr s') : s.Leaves tr.heard tr.sent s' := by
  induction h with
  | nil s => exact .refl s
  | sent h _ ih => exact (leaves_send h).trans ih
  | heard h _ ih => exact (leaves_receive h).trans ih

/-- **What a dialogue sent was written, in order**, and nothing else. -/
theorem Carries.wrote (h : s.Carries tr s') : s'.wrote = s.wrote ++ tr.sent := h.leaves.wrote

/-- **What follows a dialogue is the first that is left unread.** -/
theorem Carries.unread (h : s.Carries tr s') : s.unread = tr.heard ++ s'.unread := h.leaves.unread

/-- A peer that takes bytes takes fewer. -/
theorem Takes.mono {m : Nat} (h : s.Takes n) (hm : m ≤ n) : s.Takes m :=
  fun k hk => Nat.le_trans hm (h k hk)

/-- A stream carries a dialogue that begins with a write when its peer takes that, and the stream
after it carries the rest. -/
theorem exists_carries_sent_iff :
    (∃ s'', s.Carries (.sent bs :: tr) s'')
      ↔ ∃ s', s.send bs = (none, s') ∧ ∃ s'', s'.Carries tr s'' := by
  constructor
  · rintro ⟨s'', h⟩
    cases h with
    | sent h k => exact ⟨_, h, s'', k⟩
  · rintro ⟨s', h, s'', k⟩
    exact ⟨s'', .sent h k⟩

/-- A stream carries a dialogue that begins with a read when it offers that, and the stream after it
carries the rest. -/
theorem exists_carries_heard_iff :
    (∃ s'', s.Carries (.heard bs :: tr) s'')
      ↔ ∃ (n : Nat) (r : Vector UInt8 n) (s' : Stream), r.toList = bs
        ∧ s.receive n = (.got r, s') ∧ ∃ s'', s'.Carries tr s'' := by
  constructor
  · rintro ⟨s'', h⟩
    cases h with
    | heard h k => exact ⟨_, _, _, rfl, h, s'', k⟩
  · rintro ⟨n, r, s', rfl, h, s'', k⟩
    exact ⟨s'', .heard h k⟩

/-- **A stream carries the dialogues in which what is heard is offered, and what is sent is
taken.** -/
theorem exists_carries_iff :
    (∃ s', s.Carries tr s') ↔ tr.heard <+: s.offered ∧ s.Takes tr.sent.length := by
  induction tr generalizing s with
  | nil => exact iff_of_true ⟨s, .nil s⟩ ⟨List.nil_prefix, fun k _ => Nat.zero_le k⟩
  | cons t tr ih =>
    cases t with
    | sent bs =>
      rw [exists_carries_sent_iff, Transcript.heard_cons_sent, Transcript.sent_cons_sent,
        List.length_append]
      constructor
      · rintro ⟨s', h, hk⟩
        obtain ⟨-, -, hf, ht, -⟩ := send_eq_none h
        have ho : s'.offered = s.offered := congrArg offeredBy hf
        rw [ih, ho, ht] at hk
        exact hk
      · rintro ⟨hheard, hsent⟩
        obtain ⟨s', h, -, hf, ht, -⟩ := send_of_takes (hsent.mono (Nat.le_add_right _ _))
        have ho : s'.offered = s.offered := congrArg offeredBy hf
        exact ⟨s', h, ih.mpr ⟨ho ▸ hheard, (ht _).mpr hsent⟩⟩
    | heard bs =>
      rw [exists_carries_heard_iff, Transcript.heard_cons_heard, Transcript.sent_cons_heard]
      constructor
      · rintro ⟨n, r, s', hr, h, hk⟩
        obtain ⟨ho, -, -, hb, -⟩ := receive_eq_got h
        obtain ⟨hheard, hsent⟩ := ih.mp hk
        rw [ho, hr, Takes, ← hb]
        exact ⟨(List.prefix_append_right_inj _).mpr hheard, hsent⟩
      · rintro ⟨⟨rest, hrest⟩, hsent⟩
        rw [List.append_assoc] at hrest
        have hl : bs.length ≤ s.offered.length := by
          rw [← hrest, List.length_append]
          exact Nat.le_add_right _ _
        obtain ⟨r, s', h, hr, hd, -, -, hb, -⟩ := receive_of_le hl
        rw [← hrest, List.take_left] at hr
        rw [← hrest, List.drop_left] at hd
        have hsent' : s'.Takes (Transcript.sent tr).length := by rwa [Takes, hb]
        exact ⟨bs.length, r, s', hr, h, ih.mpr ⟨⟨rest, hd.symm⟩, hsent'⟩⟩

end Stream

end HopTorrent

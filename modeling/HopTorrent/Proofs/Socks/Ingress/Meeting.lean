import HopTorrent.Proofs.Exchange.Meeting
import HopTorrent.Proofs.Socks.Ingress.Serve
import HopTorrent.Proofs.Socks.Ingress.Target

/-!
# Proofs/Socks/Ingress/Meeting — a client asks for a target through the ingress

The client of a proxy and the ingress were written for other peers; here they meet.  There is an
order of turns in which they come to their end (`exists_agree`), so they do in every order and
division of what they say: one of them can go on until both are through, the client is let in
freely, its target is dialed once, and it learns whether it was reached (`meeting_agrees`).  A
dialer that never answers leaves both waiting, where they could be if it answered later.
-/

namespace HopTorrent.Socks.Ingress

open Meeting

/-! ## The ingress with one client -/

/-- How far the ingress is with a client. -/
inductive Phase where
  | hearing (x : Exchange String)
  /-- The dialer was asked and has not answered. -/
  | dialing (target : String)
  | answering (x : Exchange (Option Stream))

/-- The ingress with one client. -/
structure Host where
  phase : Phase
  /-- What the dialer was asked for so far. -/
  calls : List (String × String)

/-- What the ingress does next. -/
def Host.act (dial : String → String → Option (Except Error Stream)) (h : Host) : Act Host :=
  match h.phase with
  | .hearing (.done target) => .think ⟨.dialing target, h.calls ++ [("tcp", target)]⟩
  | .hearing x => x.act.map fun x => ⟨.hearing x, h.calls⟩
  | .dialing target =>
    match dial "tcp" target with
    | none => .rest
    | some dialed => .think ⟨.answering (answer (some dialed)), h.calls⟩
  | .answering x => x.act.map fun x => ⟨.answering x, h.calls⟩

/-- It passes bytes on. -/
def Host.Open (h : Host) : Prop := ∃ out, h.phase = .answering (.done (some out))

variable {dial : String → String → Option (Except Error Stream)} {auth : Option Credentials}
  {target : String} {request said u v v' : Bytes} {calls : List (String × String)} {h h' : Host}
  {t : Turn} {tr ur : Transcript} {c : Exchange Unit}
  {E : Exchange Unit → Bytes → Host → Bytes → Prop}

/-- **A turn of the ingress.** -/
theorem Host.does_cases (hd : Does (Host.act dial) h t h') :
    (∃ target, h.phase = .hearing (.done target) ∧ t = .sent []
        ∧ h' = ⟨.dialing target, h.calls ++ [("tcp", target)]⟩)
      ∨ (∃ target dialed, h.phase = .dialing target ∧ dial "tcp" target = some dialed
        ∧ t = .sent [] ∧ h' = ⟨.answering (answer (some dialed)), h.calls⟩)
      ∨ (∃ x x', h.phase = .hearing x ∧ Does Exchange.act x t x' ∧ h' = ⟨.hearing x', h.calls⟩)
      ∨ ∃ x x', h.phase = .answering x ∧ Does Exchange.act x t x'
        ∧ h' = ⟨.answering x', h.calls⟩ := by
  obtain ⟨phase, calls⟩ := h
  cases phase with
  | hearing x =>
    by_cases hx : ∃ target, x = .done target
    · obtain ⟨target, rfl⟩ := hx
      cases hd with
      | think h => exact .inl ⟨target, rfl, rfl, (Act.think.inj h).symm⟩
      | send h | recv h => cases h
    · have hact : Host.act dial ⟨.hearing x, calls⟩ = x.act.map fun x => ⟨.hearing x, calls⟩ := by
        cases x with
        | done target => exact absurd ⟨target, rfl⟩ hx
        | fail | send | recv => rfl
      obtain ⟨x', h, rfl⟩ := hd.of_map hact
      exact .inr (.inr (.inl ⟨x, x', rfl, h, rfl⟩))
  | dialing target =>
    cases hdial : dial "tcp" target with
    | none => exact absurd (by simp [Host.act, hdial]) hd.ne_rest
    | some dialed =>
      have hact : Host.act dial ⟨.dialing target, calls⟩
          = .think ⟨.answering (answer (some dialed)), calls⟩ := by simp [Host.act, hdial]
      cases hd with
      | think h =>
        exact .inr (.inl ⟨target, dialed, rfl, hdial, rfl,
          (Act.think.inj (hact.symm.trans h)).symm⟩)
      | send h | recv h => cases hact.symm.trans h
  | answering x =>
    obtain ⟨x', h, rfl⟩ := hd.of_map (g := Exchange.act) (y := x) rfl
    exact .inr (.inr (.inr ⟨x, x', rfl, h, rfl⟩))

/-- No call is taken back. -/
theorem Host.calls_of_dialogue (hd : Dialogue (Host.act dial) h tr h') : h.calls <+: h'.calls := by
  induction hd with
  | nil => exact List.prefix_refl _
  | cons hd _ ih =>
    refine List.IsPrefix.trans ?_ ih
    obtain ⟨_, -, -, rfl⟩ | ⟨_, _, -, -, -, rfl⟩ | ⟨_, _, -, -, rfl⟩ | ⟨_, _, -, -, rfl⟩ :=
      Host.does_cases hd
    · exact List.prefix_append _ _
    · exact List.prefix_refl _
    · exact List.prefix_refl _
    · exact List.prefix_refl _

/-- A target that is waited for was asked for. -/
theorem Host.mem_calls_of_dialogue (hd : Dialogue (Host.act dial) h tr h')
    (hh : h.phase = .dialing target → ("tcp", target) ∈ h.calls)
    (hp : h'.phase = .dialing target) : ("tcp", target) ∈ h'.calls := by
  induction hd with
  | nil => exact hh hp
  | cons hd _ ih =>
    refine ih (fun hp' => ?_) hp
    obtain ⟨_, -, -, rfl⟩ | ⟨_, _, -, -, -, rfl⟩ | ⟨_, _, -, -, rfl⟩ | ⟨_, _, -, -, rfl⟩ :=
      Host.does_cases hd
    · obtain rfl := Phase.dialing.inj hp'
      exact List.mem_append_right _ (List.mem_singleton.mpr rfl)
    all_goals cases hp'

/-- What the ingress has still to do with a client. -/
def Host.remains (dial : String → String → Option (Except Error Stream)) (h : Host) :
    Exchange (Option Stream) :=
  match h.phase with
  | .hearing x => x.bind fun target => answer (dial "tcp" target)
  | .dialing target => answer (dial "tcp" target)
  | .answering x => x

/-- **The ingress holds the dialogue of `serving`**, but for the turns that nobody hears of. -/
theorem Host.remains_of_dialogue (hd : Dialogue (Host.act dial) h tr h') :
    ∃ tr', Dialogue Exchange.act (h.remains dial) tr' (h'.remains dial)
      ∧ Transcript.sent tr' = Transcript.sent tr ∧ Transcript.heard tr' = Transcript.heard tr := by
  induction hd with
  | nil => exact ⟨[], .nil _, rfl, rfl⟩
  | @cons h h' h'' t tr hd _ ih =>
    obtain ⟨tr', hd', hs, hh⟩ := ih
    have hturn : t = .sent [] ∧ h'.remains dial = h.remains dial
        ∨ Does Exchange.act (h.remains dial) t (h'.remains dial) := by
      obtain ⟨_, hp, rfl, rfl⟩ | ⟨_, _, hp, hdial, rfl, rfl⟩ | ⟨_, _, hp, hx, rfl⟩
          | ⟨_, _, hp, hx, rfl⟩ := Host.does_cases hd <;>
        rw [Host.remains, Host.remains, hp]
      · exact .inl ⟨rfl, rfl⟩
      · exact .inl ⟨rfl, congrArg answer hdial.symm⟩
      · exact .inr (hx.bind _)
      · exact .inr hx
    obtain ⟨rfl, he⟩ | hturn := hturn
    · exact ⟨tr', he ▸ hd', hs, hh⟩
    · refine ⟨t :: tr', .cons hturn hd', ?_, ?_⟩
      · rw [Transcript.sent_cons, Transcript.sent_cons, hs]
      · rw [Transcript.heard_cons, Transcript.heard_cons, hh]

/-! ## The order of their turns -/

/-- **Whatever is heard out is heard turn by turn.** -/
theorem agree_hearing {x : Exchange String} (hx : x.upon v = ⟨.done target, said, v'⟩)
    (k : Agree Exchange.act (Host.act dial) E tr ur c (u ++ said)
      ⟨.hearing (.done target), calls⟩ v') :
    ∃ ur', Transcript.sent ur' = said ∧ Agree Exchange.act (Host.act dial) E tr (ur' ++ ur) c u
      ⟨.hearing x, calls⟩ v := by
  induction x generalizing v u said with
  | done a =>
    obtain ⟨ht, rfl, rfl⟩ := Exchange.Hearing.mk.inj hx
    obtain rfl := Exchange.Verdict.done.inj ht
    exact ⟨[], rfl, by simpa using k⟩
  | fail e => cases (Exchange.Hearing.mk.inj hx).1
  | send bs onFault next ih =>
    obtain ⟨said', rfl, hnext⟩ := Exchange.upon_send_eq_done_iff.mp hx
    rw [← List.append_assoc] at k
    obtain ⟨ur', hs, k'⟩ := ih hnext k
    exact ⟨.sent bs :: ur', by rw [Transcript.sent_cons_sent, hs], (k'.symm.speaks (by rfl)).symm⟩
  | recv n onFault next ih =>
    obtain ⟨r, offer, rfl, hnext⟩ := Exchange.upon_recv_eq_done_iff.mp hx
    obtain ⟨ur', hs, k'⟩ := ih r hnext k
    exact ⟨.heard r.toList :: ur', hs, (k'.symm.hears r (by rfl)).symm⟩

/-- **A client that offers to come in freely is let in**, turn by turn. -/
theorem agree_accept {count : UInt8} {methods : Bytes} (hm : methods.length = count.toNat)
    (hn : noAuth ∈ methods)
    (k : Agree Exchange.act (Host.act dial) E tr ur c (u ++ [version, noAuth])
      ⟨.hearing readRequest, calls⟩ v) :
    Agree Exchange.act (Host.act dial) E tr
      ([.heard [version, count], .heard methods, .sent [version, noAuth]] ++ ur) c u
      ⟨.hearing accept, calls⟩ ([version, count] ++ (methods ++ v)) := by
  obtain ⟨methods, rfl⟩ := Exchange.exists_toList_eq hm
  have hchoose : Host.act dial ⟨.hearing (choose methods.toList readRequest), calls⟩
      = .send [version, noAuth] ⟨.hearing readRequest, calls⟩ := by
    rw [choose, if_pos (by simpa using hn)]
    rfl
  have hmethods : Host.act dial ⟨.hearing (.recv count.toNat reading
        fun methods => choose methods.toList readRequest), calls⟩
      = .recv count.toNat fun methods => ⟨.hearing (choose methods.toList readRequest), calls⟩ :=
    rfl
  exact (((k.symm.speaks hchoose).hears methods hmethods).hears #v[version, count] (by rfl)).symm

/-- What the ingress comes to when the client was answered. -/
def answered : Except Error Stream → Exchange (Option Stream)
  | .ok out => .done (some out)
  | .error e => .fail e

/-- **How it ends**, by the answer of the dialer.  A client that is refused leaves the address in
the reply. -/
def Ends (target : String) (dialed : Except Error Stream) (c : Exchange Unit) (u : Bytes) (h : Host)
    (v : Bytes) : Prop :=
  v = [] ∧ h = ⟨.answering (answered dialed), [("tcp", target)]⟩ ∧ match dialed with
    | .ok _ => c = .done () ∧ u = []
    | .error _ => c = .fail (.socks "connect failed: general failure (code 1)")
      ∧ u = [0, 0, 0, 0, 0, 0]

/-- Less is left to the client than it was told. -/
theorem Ends.length_lt {dialed : Except Error Stream} (he : Ends target dialed c u h v) :
    u.length < (told (some dialed)).length := by
  obtain ⟨-, -, he⟩ := he
  cases dialed with
  | ok out =>
    rw [he.2]
    exact Nat.zero_lt_succ _
  | error e =>
    rw [he.2]
    simp [told, reply]

/-- **A client that said its request waits for the reply**, and ends as it says. -/
theorem act_request (request : Bytes) : ∃ c, (Socks.request request).act = .send request c
    ∧ Dialogue Exchange.act c [.heard [5, 0, 0, 1], .heard [0, 0, 0, 0, 0, 0]] (.done ())
    ∧ Dialogue Exchange.act c [.heard [5, 1, 0, 1]]
      (.fail (.socks "connect failed: general failure (code 1)")) :=
  ⟨_, rfl, .cons (.recv rfl #v[5, 0, 0, 1]) (.cons (.recv rfl #v[0, 0, 0, 0, 0, 0]) (.nil _)),
    .cons (.recv rfl #v[5, 1, 0, 1]) (.nil _)⟩

/-- **A request is heard, dialed, and answered.** -/
theorem agree_request {dialed : Except Error Stream} {c' : Exchange Unit} {listening : Transcript}
    (hreq : Requests request target) (hd : dial "tcp" target = some dialed)
    (hl : Dialogue Exchange.act c listening c') (hs : Transcript.sent listening = [])
    (hc : c'.act = .rest) (htold : Transcript.heard listening ++ u = told (some dialed))
    (he : Ends target dialed c' u ⟨.answering (answered dialed), [("tcp", target)]⟩ []) :
    ∃ ur, Agree Exchange.act (Host.act dial) (Ends target dialed) listening
        (ur ++ [.sent (told (some dialed))]) c [] ⟨.hearing readRequest, []⟩ request
      ∧ Transcript.sent ur = [] := by
  obtain ⟨hans, hleft⟩ :
      (answer (some dialed)).act = .send (told (some dialed)) (answered dialed)
        ∧ (answered dialed).act = .rest := by
    cases dialed <;> exact ⟨rfl, rfl⟩
  have hhost : ∀ {x : Exchange (Option Stream)},
      Host.act dial ⟨.answering x, [("tcp", target)]⟩
        = x.act.map fun x => ⟨.answering x, [("tcp", target)]⟩ := rfl
  have hend : Agree Exchange.act (Host.act dial) (Ends target dialed) [] [] c' u
      ⟨.answering (answered dialed), [("tcp", target)]⟩ [] :=
    .rest hc (by rw [hhost, hleft]; rfl) he
  have hheard := hend.listens hl hs
  rw [htold, List.append_nil] at hheard
  have hanswer := hheard.symm.speaks (x := ⟨.answering (answer (some dialed)), [("tcp", target)]⟩)
    (u := []) (v := []) (by rw [hhost, hans]; rfl)
  have hdial := hanswer.thinks (x := ⟨.dialing target, [("tcp", target)]⟩) (by simp [Host.act, hd])
  have hcall := hdial.thinks (x := ⟨.hearing (.done target), []⟩) (by rfl)
  have hupon : readRequest.upon request = ⟨.done target, [], []⟩ :=
    upon_readRequest_eq_done_iff.mpr ⟨request, hreq, (List.append_nil _).symm, rfl⟩
  obtain ⟨ur, hur, k⟩ := agree_hearing hupon (u := []) hcall.symm
  refine ⟨ur ++ [.sent [], .sent []], ?_, by simp [hur]⟩
  rw [List.append_assoc]
  exact k

/-- **Its request comes to an end**, whatever the dialer answers. -/
theorem exists_agree_request {dialed : Except Error Stream} (hreq : Requests request target)
    (hd : dial "tcp" target = some dialed) :
    ∃ c listening ur, (Socks.request request).act = .send request c
      ∧ Agree Exchange.act (Host.act dial) (Ends target dialed) listening
        (ur ++ [.sent (told (some dialed))]) c [] ⟨.hearing readRequest, []⟩ request
      ∧ Transcript.sent listening = [] ∧ Transcript.sent ur = [] := by
  obtain ⟨c, hc, hok, herror⟩ := act_request request
  cases dialed with
  | ok out =>
    obtain ⟨ur, k, hur⟩ := agree_request (u := []) hreq hd hok rfl rfl rfl ⟨rfl, rfl, rfl, rfl⟩
    exact ⟨c, _, ur, hc, k, rfl, hur⟩
  | error e =>
    obtain ⟨ur, k, hur⟩ := agree_request (u := [0, 0, 0, 0, 0, 0]) hreq hd herror rfl rfl rfl
      ⟨rfl, rfl, rfl, rfl⟩
    exact ⟨c, _, ur, hc, k, rfl, hur⟩

/-- A client offers to come in freely, whatever else. -/
theorem exists_greeting_eq (auth : Option Credentials) : ∃ count methods,
    greeting auth = [version, count] ++ methods ∧ methods.length = count.toNat
      ∧ noAuth ∈ methods := by
  cases auth with
  | none => exact ⟨1, [noAuth], rfl, rfl, List.mem_cons_self⟩
  | some _ => exact ⟨2, [noAuth, userPass], rfl, rfl, List.mem_cons_self⟩

/-- **A client of a proxy and the ingress come to their end**, if the dialer answers. -/
theorem exists_agree {dialed : Except Error Stream} {target' : String}
    (hr : connectRequest target = .ok request) (hreq : Requests request target')
    (hd : dial "tcp" target' = some dialed) (auth : Option Credentials) :
    ∃ tr ur, Agree Exchange.act (Host.act dial) (Ends target' dialed) tr
        (ur ++ [.sent (told (some dialed))]) (Socks.connect target auth) []
        ⟨.hearing accept, []⟩ []
      ∧ Transcript.sent tr = greeting auth ++ request ∧ Transcript.sent ur = [version, noAuth] := by
  obtain ⟨c, listening, ur, hc, hrequest, hs, hur⟩ := exists_agree_request hreq hd
  obtain ⟨count, methods, hg, hm, hn⟩ := exists_greeting_eq auth
  have hconnect : (Socks.connect target auth).act = .send (greeting auth)
      (.recvTwo (during "greeting response failed") (proceed auth request)) := by
    rw [Socks.connect, hr]
    rfl
  have hproceed : (Exchange.recvTwo (during "greeting response failed")
      (proceed auth request)).act = .recv 2 fun r => proceed auth request r[0] r[1] := rfl
  have hspeaks := Agree.speaks (v := []) hc hrequest
  have haccept := agree_accept hm hn (u := []) (hspeaks.hears #v[version, noAuth] hproceed)
  rw [List.append_nil methods, ← hg, ← List.append_assoc] at haccept
  refine ⟨_, _, .speaks hconnect haccept, ?_, ?_⟩
  · rw [Transcript.sent_cons_sent, Transcript.sent_cons_heard, Transcript.sent_cons_sent, hs,
      List.append_nil]
  · rw [Transcript.sent_append, hur]
    rfl

/-! ## Whatever happens first -/

/-- A connection that carried nothing yet. -/
def quiet : Stream := ⟨[], .hang, none, false, [], false, []⟩

/-- A client that starts to ask for a target. -/
def asking (target : String) (auth : Option Credentials) : Party (Exchange Unit) :=
  ⟨Socks.connect target auth, quiet, [], []⟩

/-- The ingress with a client that comes. -/
def listening : Party Host := ⟨⟨.hearing accept, []⟩, quiet, [], []⟩

/-- **One of the two can go on**, unless both are through, or the dialer does not answer. -/
def GoesOn (dial : String → String → Option (Except Error Stream)) (target : String)
    (c : Party (Exchange Unit)) (h : Party Host) : Prop :=
  (∃ c' h', Goes Exchange.act c h c' h') ∨ (∃ c' h', Goes (Host.act dial) h c h' c')
    ∨ (h.state.phase = .dialing target ∧ dial "tcp" target = none)
    ∨ c.state.act = .rest ∧ Host.act dial h.state = .rest ∧ c.coming = [] ∧ h.coming = []

/-- **How a client and the ingress stand** when the client is through, by what the dialer answered.
Neither has heard anything of what the other says through the tunnel. -/
structure Settled (auth : Option Credentials) (request : Bytes) (target : String)
    (dialed : Except Error Stream) (c : Party (Exchange Unit)) (h : Party Host) : Prop where
  host : h.state = ⟨.answering (answered dialed), [("tcp", target)]⟩
  client : match dialed with
    | .ok _ => c.state = .done () ∧ c.stream.unread ++ c.coming = h.spoken
    | .error _ => c.state = .fail (.socks "connect failed: general failure (code 1)")
  said : c.stream.wrote = greeting auth ++ request ++ c.spoken
  answered : h.stream.wrote = [version, noAuth] ++ told (some dialed) ++ h.spoken
  unheard : h.stream.unread ++ h.coming = c.spoken

/-- **How a client and the ingress stand**, at any moment, by what the dialer answers. -/
structure Agreed (auth : Option Credentials) (request : Bytes) (target : String)
    (dialed : Option (Except Error Stream)) (c : Party (Exchange Unit)) (h : Party Host) :
    Prop where
  /-- The client says its greeting and its request, and no name and no password. -/
  said : ∃ said, said <+: greeting auth ++ request ∧ c.stream.wrote = said ++ c.spoken
  /-- The ingress lets it in freely. -/
  chosen : h.stream.wrote.take 2 <+: [version, noAuth]
  /-- Nothing but its target is dialed, and that once. -/
  calls : h.state.calls <+: [("tcp", target)]
  /-- When the client is through, then the dialer has answered. -/
  settled : c.state.act = .rest → ∃ result, dialed = some result
    ∧ Settled auth request target result c h

/-- What a dialogue left to a side that ends with a word says, if any is left. -/
theorem length_le_of_suffix {done rest ur : Transcript} {word : Bytes}
    (h : ur ++ [.sent word] = done ++ rest) (hr : rest ≠ []) :
    word.length ≤ (Transcript.sent rest).length := by
  obtain ⟨rest', t, rfl⟩ := List.eq_nil_or_concat rest |>.resolve_left hr
  rw [List.concat_eq_append, ← List.append_assoc] at h
  obtain ⟨-, ht⟩ := List.append_inj' h rfl
  obtain rfl := (List.cons.inj ht).1
  simp

section

variable {dialed : Except Error Stream} {p : Party (Exchange Unit)} {q : Party Host}
  {restL restR : Transcript} {n : Nat}

/-- **A client that is through was told everything**, and so was the ingress. -/
theorem Settled.of_meets (m : Meets Exchange.act (Host.act dial) (Ends target dialed) tr
      (ur ++ [.sent (told (some dialed))]) p q restL restR u v n)
    (hs : Transcript.sent tr = greeting auth ++ request)
    (hu : Transcript.sent ur = [version, noAuth]) (hx : p.state.act = .rest) :
    Settled auth request target dialed p q := by
  obtain ⟨doneL, hL, hwL⟩ := m.left.wrote
  obtain ⟨doneR, hR, hwR⟩ := m.right.wrote
  obtain ⟨u', h', v', hd, he, rfl, rfl⟩ := m.ends hx
  have hnil : restR = [] := by
    refine Classical.byContradiction fun hne => Nat.not_le_of_lt he.length_lt ?_
    rw [List.length_append]
    exact Nat.le_trans (length_le_of_suffix hR hne) (Nat.le_add_left _ _)
  subst hnil
  obtain rfl := m.agree.eq_nil hx
  obtain ⟨rfl, rfl, he⟩ := he
  rw [List.append_nil] at hL hR
  rw [Transcript.sent_nil, List.append_nil] at he
  refine ⟨hd.eq.symm, ?_, ?_, ?_, m.right.pending⟩
  · cases dialed with
    | ok out => exact ⟨he.1, by rw [m.left.pending, he.2, List.nil_append]⟩
    | error e => exact he.1
  · rw [hwL, ← hL, hs]
  · rw [hwR, ← hR, Transcript.sent_append, hu, Transcript.sent_cons_sent, Transcript.sent_nil,
      List.append_nil]

/-- **On the way to their end they stand as they should.** -/
theorem Agreed.of_meets (m : Meets Exchange.act (Host.act dial) (Ends target dialed) tr
      (ur ++ [.sent (told (some dialed))]) p q restL restR u v n)
    (hs : Transcript.sent tr = greeting auth ++ request)
    (hu : Transcript.sent ur = [version, noAuth]) :
    Agreed auth request target (some dialed) p q := by
  obtain ⟨doneL, hL, hwL⟩ := m.left.wrote
  obtain ⟨doneR, hR, hwR⟩ := m.right.wrote
  have hsaid : Transcript.sent doneR ++ Transcript.sent restR
      = [version, noAuth] ++ told (some dialed) := by
    rw [← Transcript.sent_append, ← hR, Transcript.sent_append, hu, Transcript.sent_cons_sent,
      Transcript.sent_nil, List.append_nil]
  refine ⟨⟨Transcript.sent doneL, ?_, hwL⟩, ?_, ?_, fun hx => ⟨dialed, rfl, .of_meets m hs hu hx⟩⟩
  · rw [← hs, hL, Transcript.sent_append]
    exact List.prefix_append _ _
  · -- it speaks through the tunnel only when all this was said
    cases hr : restR with
    | nil =>
      rw [hr, Transcript.sent_nil, List.append_nil] at hsaid
      rw [hwR, hsaid, List.append_assoc]
      exact List.prefix_refl [version, noAuth]
    | cons t rest =>
      have hnil : q.spoken = [] := (hr ▸ m.right).spoken_eq_nil
      rw [hwR, hnil, List.append_nil]
      exact ⟨(Transcript.sent restR).take _, by rw [← List.take_append, hsaid]; rfl⟩
  · obtain ⟨_, _, h', _, -, hd, ⟨-, rfl, -⟩, -, -⟩ := m.agree.ends
    exact Host.calls_of_dialogue hd

end

/-! ## Dialers that do not answer -/

/-- The dialer if it answered `result` where it does not answer. -/
def supposing (result : Except Error Stream)
    (dial : String → String → Option (Except Error Stream)) :
    String → String → Option (Except Error Stream) :=
  fun network target => some ((dial network target).getD result)

/-- Nothing is different until it is waited for. -/
theorem act_supposing (dial : String → String → Option (Except Error Stream))
    (result : Except Error Stream) (h : Host) :
    Host.act dial h = Host.act (supposing result dial) h
      ∨ Host.act dial h = .rest
        ∧ ∃ target, h.phase = .dialing target ∧ dial "tcp" target = none := by
  obtain ⟨phase, calls⟩ := h
  cases phase with
  | hearing x =>
    left
    cases x <;> rfl
  | dialing target =>
    cases hd : dial "tcp" target with
    | none => exact .inr ⟨by simp [Host.act, hd], target, rfl, hd⟩
    | some dialed => exact .inl (by simp [Host.act, supposing, hd])
  | answering x => exact .inl rfl

/-- **A dialer that does not answer is as good as one that may answer anything.** -/
theorem Agreed.of_forall {dialed : Option (Except Error Stream)} {p : Party (Exchange Unit)}
    {q : Party Host} (k : ∀ result, Agreed auth request target (some (dialed.getD result)) p q) :
    Agreed auth request target dialed p q := by
  cases dialed with
  | some result => exact k result
  | none =>
    have hok := k (.ok quiet)
    have herror := k (.error (.socks ""))
    refine ⟨hok.said, hok.chosen, hok.calls, fun hx => ?_⟩
    obtain ⟨_, h₁, hdone⟩ := hok.settled hx
    obtain ⟨_, h₂, hfail⟩ := herror.settled hx
    cases h₁
    cases h₂
    cases hdone.client.1.symm.trans hfail.client

/-- They go on as they would if the dialer answered. -/
theorem GoesOn.of_supposing {result : Except Error Stream} {p : Party (Exchange Unit)}
    {q : Party Host} (k : GoesOn (supposing result dial) target p q)
    (hcalls : q.state.calls <+: [("tcp", target)])
    (hdialing : ∀ target, q.state.phase = .dialing target → ("tcp", target) ∈ q.state.calls) :
    GoesOn dial target p q := by
  obtain hsame | ⟨-, target', hphase, hd⟩ := act_supposing dial result q.state
  · obtain hc | ⟨c', h', hg⟩ | ⟨-, hd⟩ | ⟨hc, hh, hcoming⟩ := k
    · exact .inl hc
    · exact .inr (.inl ⟨c', h', hg.congr (.inl hsame.symm)⟩)
    · cases hd
    · exact .inr (.inr (.inr ⟨hc, hsame.trans hh, hcoming⟩))
  · have hmem := hcalls.subset (hdialing target' hphase)
    obtain rfl := (Prod.mk.inj (List.mem_singleton.mp hmem)).2
    exact .inr (.inr (.inl ⟨hphase, hd⟩))

/-! ## A client and the ingress -/

/-- **A client and the ingress run**, the tunnel being open to each when it is through. -/
abbrev Runs (dial : String → String → Option (Except Error Stream)) (target : String)
    (auth : Option Credentials) (n : Nat) (p : Party (Exchange Unit)) (q : Party Host) : Prop :=
  Run Exchange.act (Host.act dial) (· = .done ()) Host.Open n (asking target auth) listening p q

/-- A client that is connected is through. -/
theorem act_of_eq_done (c : Exchange Unit) (h : c = .done ()) : c.act = .rest := by
  rw [h]
  rfl

/-- The ingress is through when it passes bytes on. -/
theorem Host.act_of_open (h : Host) (ho : h.Open) : Host.act dial h = .rest := by
  obtain ⟨out, hp⟩ := ho
  rw [Host.act, hp]
  rfl

section

variable {n : Nat} {p : Party (Exchange Unit)} {q : Party Host}

theorem Runs.holds (k : Runs dial target auth n p q) :
    ∃ tr ur, Holds Exchange.act (Socks.connect target auth) p q tr
      ∧ Holds (Host.act dial) ⟨.hearing accept, []⟩ q p ur :=
  Run.holds k act_of_eq_done Host.act_of_open ⟨.nil _, rfl, rfl, fun h => absurd rfl h⟩
    ⟨.nil _, rfl, rfl, fun h => absurd rfl h⟩

/-- **Each of them does what it does when it is run** over what it heard from the other. -/
theorem Runs.reaches (k : Runs dial target auth n p q) :
    Reaches (Socks.connect target auth) p.state p q
      ∧ Reaches (serving dial) (q.state.remains dial) q p := by
  obtain ⟨tr, ur, hp, hq⟩ := k.holds
  obtain ⟨ur', hd, hs, hh⟩ := Host.remains_of_dialogue hq.dialogue
  exact ⟨hp.reaches hp.dialogue rfl rfl, hq.reaches hd hs hh⟩

end

/-- **If the dialer answers for sure**, they come to their end. -/
theorem exists_bound_of_supposing (hr : connectRequest target = .ok request) {target' : String}
    (hreq : Requests request target') (dial : String → String → Option (Except Error Stream))
    (auth : Option Credentials) (result : Except Error Stream) :
    ∃ bound, ∀ n p q, Runs dial target auth n p q →
      n ≤ bound + 2 * (p.spoken.length + q.spoken.length)
        ∧ GoesOn (supposing result dial) target' p q
        ∧ Agreed auth request target' (some ((dial "tcp" target').getD result)) p q := by
  have hd : supposing result dial "tcp" target' = some ((dial "tcp" target').getD result) := rfl
  obtain ⟨tr, ur, k, hs, hu⟩ := exists_agree hr hreq hd auth
  obtain ⟨bound, hm⟩ := k.meets (s := quiet) rfl rfl rfl
  refine ⟨bound, fun n p q hrun => ?_⟩
  have hrun' := hrun.congr fun h => (act_supposing dial result h).imp_right And.left
  obtain ⟨restL, restR, u, v, m, hmeets, hle⟩ :=
    hrun'.meets hm act_of_eq_done Host.act_of_open
  refine ⟨Nat.le_trans (Nat.le_add_right n m) hle, ?_, .of_meets hmeets hs hu⟩
  exact hmeets.progress.imp_right (.imp_right .inr)

/-- **A client and the ingress agree**: whatever the target, the credentials and the dialer, and in
whatever order and pieces they go on.  Each of them is where it is when it is run over what it heard
from the other. -/
theorem meeting_agrees (hr : connectRequest target = .ok request)
    (dial : String → String → Option (Except Error Stream)) (auth : Option Credentials) :
    ∃ a, Address.parse target = .ok a ∧ ∃ bound, ∀ n p q, Runs dial target auth n p q →
      n ≤ bound + 2 * (p.spoken.length + q.spoken.length) ∧ GoesOn dial (handedOn a) p q
        ∧ Agreed auth request (handedOn a) (dial "tcp" (handedOn a)) p q
        ∧ Reaches (Socks.connect target auth) p.state p q
        ∧ Reaches (serving dial) (q.state.remains dial) q p := by
  obtain ⟨a, -, ha, -⟩ := connectRequest_eq_ok_iff.mp hr
  have hreq := requests_handedOn hr ha
  obtain ⟨bound, hbound⟩ := exists_bound_of_supposing hr hreq dial auth (.ok quiet)
  refine ⟨a, ha, bound, fun n p q hrun => ?_⟩
  obtain ⟨hle, hgoes, hagreed⟩ := hbound n p q hrun
  obtain ⟨-, ur, -, hq⟩ := hrun.holds
  refine ⟨hle, hgoes.of_supposing hagreed.calls fun _ =>
    Host.mem_calls_of_dialogue hq.dialogue nofun, .of_forall fun result => ?_, hrun.reaches⟩
  obtain ⟨_, hbound'⟩ := exists_bound_of_supposing hr hreq dial auth result
  exact (hbound' n p q hrun).2.2

/-- The request for `example.org:443`. -/
def exampleRequest : Bytes :=
  [version, connectCommand, 0, domain, 11] ++ Bytes.utf8 "example.org" ++ [1, 187]

/-- A client with a name and a password is let in without them, and has its target dialed. -/
theorem meeting_agrees_example :
    connectRequest "example.org:443" = .ok exampleRequest
      ∧ ∃ bound, ∀ n p q,
        Runs (fun _ _ => some (.ok quiet)) "example.org:443" (some ⟨"alice", "secret"⟩) n p q →
          n ≤ bound + 2 * (p.spoken.length + q.spoken.length)
            ∧ GoesOn (fun _ _ => some (.ok quiet)) "example.org:443" p q
            ∧ Agreed (some ⟨"alice", "secret"⟩) exampleRequest "example.org:443"
              (some (.ok quiet)) p q := by
  have hr : connectRequest "example.org:443" = .ok exampleRequest := rfl
  have hparse : Address.parse "example.org:443" = .ok ⟨"example.org", 443⟩ := rfl
  have hhanded : handedOn ⟨"example.org", 443⟩ = "example.org:443" := rfl
  obtain ⟨a, ha, bound, h⟩ :=
    meeting_agrees hr (fun _ _ => some (.ok quiet)) (some ⟨"alice", "secret"⟩)
  obtain rfl := Except.ok.inj (ha.symm.trans hparse)
  rw [hhanded] at h
  refine ⟨hr, bound, fun n p q hrun => ?_⟩
  obtain ⟨hle, hgoes, hagreed, -⟩ := h n p q hrun
  exact ⟨hle, hgoes, hagreed⟩

end HopTorrent.Socks.Ingress

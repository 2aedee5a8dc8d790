import BodyLength.Proofs.Scan.Bodies
import BodyLength.Scan.Ticket
/-!
# Which tickets are live

A host makes counters, issues tickets from them, and copies both the handles that it has on its
counters and its tickets, in any order. `Host.Run` are its runs, each with the tickets issued in it.

What a counter says is a matter of the tickets issued from it alone: they are numbered from 1 on and
the counter holds their number (`Host.Accurate`). So a ticket is stale if another one was issued
from its counter later, and stays so (`Host.Accurate.isStale_iff`).
-/

namespace BodyLength

/-! ## Counters -/

namespace TicketOffice

variable (o : TicketOffice)

/-- A new counter stands at 0, as one that does not exist does. -/
theorem latest_newCounter (c : Nat) : o.newCounter.1.latest c = o.latest c := by
  show (o.issued ++ [0]).getD c 0 = o.issued.getD c 0
  rw [List.getD_eq_getElem?_getD, List.getD_eq_getElem?_getD]
  rcases Nat.lt_or_ge c o.issued.length with hc | hc
  · rw [List.getElem?_append_left hc]
  · rw [List.getElem?_append_right hc, List.getElem?_eq_none hc]
    cases c - o.issued.length <;> rfl

theorem length_issued_issue (c : Nat) : (o.issue c).1.issued.length = o.issued.length :=
  List.length_set

theorem latest_issue_self {c : Nat} (hc : c < o.issued.length) : (o.issue c).1.latest c = o.latest c + 1 := by
  show (o.issued.set c (o.latest c + 1)).getD c 0 = _
  rw [List.getD_eq_getElem?_getD, List.getElem?_set_self hc]
  rfl

theorem latest_issue_of_ne {c d : Nat} (h : c ≠ d) : (o.issue c).1.latest d = o.latest d := by
  show (o.issued.set c (o.latest c + 1)).getD d 0 = o.issued.getD d 0
  rw [List.getD_eq_getElem?_getD, List.getElem?_set_ne h, List.getD_eq_getElem?_getD]

theorem isStale_iff (t : Ticket) : o.isStale t ↔ o.latest t.counter ≠ t.id := bne_iff_ne

end TicketOffice

/-- The tickets among some that a counter issued. -/
def issuedBy (c : Nat) (issues : List Ticket) : List Ticket := issues.filter (·.counter = c)

theorem issuedBy_append (c : Nat) (issues later : List Ticket) :
    issuedBy c (issues ++ later) = issuedBy c issues ++ issuedBy c later := List.filter_append ..

theorem issuedBy_concat_of_eq {c : Nat} {t : Ticket} (h : t.counter = c) (issues : List Ticket) :
    issuedBy c (issues ++ [t]) = issuedBy c issues ++ [t] := by
  simp [issuedBy, h]

theorem issuedBy_concat_of_ne {c : Nat} {t : Ticket} (h : t.counter ≠ c) (issues : List Ticket) :
    issuedBy c (issues ++ [t]) = issuedBy c issues := by
  simp [issuedBy, h]

theorem issuedBy_eq_nil {c : Nat} {issues : List Ticket} : issuedBy c issues = [] ↔ ∀ t ∈ issues, t.counter ≠ c := by
  simp [issuedBy]

/-! ## Runs -/

/-- What a host holds. -/
structure Host where
  office : TicketOffice := {}
  /-- The counters that its handles are on. -/
  handles : List Nat := []
  tickets : List Ticket := []

namespace Host

/-- One operation of a host, with the tickets that it issues. -/
inductive Step (h : Host) : List Ticket → Host → Prop
  | newCounter : Step h []
      { h with office := h.office.newCounter.1, handles := h.handles ++ [h.office.newCounter.2] }
  | copyHandle {c : Nat} : c ∈ h.handles → Step h [] { h with handles := h.handles ++ [c] }
  | issue {c : Nat} : c ∈ h.handles → Step h [(h.office.issue c).2]
      { h with office := (h.office.issue c).1, tickets := h.tickets ++ [(h.office.issue c).2] }
  | copyTicket {t : Ticket} : t ∈ h.tickets → Step h [] { h with tickets := h.tickets ++ [t] }

/-- Any number of operations, with the tickets that they issue in order. -/
inductive Run (h : Host) : List Ticket → Host → Prop
  | refl : Run h [] h
  | tail {issues js : List Ticket} {h' h'' : Host} : Run h issues h' → Step h' js h'' → Run h (issues ++ js) h''

/-- The host holds what comes of the tickets issued so far. -/
structure Accurate (h : Host) (issues : List Ticket) : Prop where
  handles_lt : ∀ c ∈ h.handles, c < h.office.issued.length
  latest_eq : ∀ c, h.office.latest c = (issuedBy c issues).length.toUInt64
  ids_eq : ∀ c, (issuedBy c issues).map (·.id) = (List.range' 1 (issuedBy c issues).length).map Nat.toUInt64
  tickets_mem : ∀ t ∈ h.tickets, t ∈ issues

theorem accurate_start : Accurate {} [] where
  handles_lt := by simp
  latest_eq _ := rfl
  ids_eq _ := rfl
  tickets_mem := by simp

namespace Accurate

variable {h h' : Host} {issues js : List Ticket}

theorem step (ha : h.Accurate issues) (hs : h.Step js h') : h'.Accurate (issues ++ js) := by
  cases hs with
  | newCounter =>
    rw [List.append_nil]
    refine { ha with handles_lt := ?_, latest_eq := ?_ }
    · intro c hc
      show c < (h.office.issued ++ [0]).length
      rw [List.length_append, List.length_singleton]
      rcases List.mem_append.1 hc with hc | hc
      · exact Nat.lt_succ_of_lt (ha.handles_lt c hc)
      · rw [List.mem_singleton.1 hc]
        exact Nat.lt_succ_self _
    · intro c
      exact (h.office.latest_newCounter c).trans (ha.latest_eq c)
  | copyHandle hc =>
    rw [List.append_nil]
    refine { ha with handles_lt := ?_ }
    intro d hd
    rcases List.mem_append.1 hd with hd | hd
    · exact ha.handles_lt d hd
    · rw [List.mem_singleton.1 hd]
      exact ha.handles_lt _ hc
  | @issue c hc =>
    have hlatest := ha.latest_eq c
    have hcounter : (h.office.issue c).2.counter = c := rfl
    refine { handles_lt := ?_, latest_eq := ?_, ids_eq := ?_, tickets_mem := ?_ }
    · intro d hd
      rw [TicketOffice.length_issued_issue]
      exact ha.handles_lt d hd
    · intro d
      by_cases hd : c = d
      · subst hd
        rw [TicketOffice.latest_issue_self _ (ha.handles_lt c hc), issuedBy_concat_of_eq hcounter, List.length_append]
        exact (congrArg (· + 1) hlatest).trans (UInt64.ofNat_add ..).symm
      · rw [TicketOffice.latest_issue_of_ne _ hd, issuedBy_concat_of_ne hd]
        exact ha.latest_eq d
    · intro d
      by_cases hd : c = d
      · subst hd
        rw [issuedBy_concat_of_eq hcounter, List.map_append, ha.ids_eq, List.length_append, List.length_singleton,
          List.range'_1_concat, List.map_append]
        congr 1
        show [h.office.latest c + 1] = [(1 + (issuedBy c issues).length).toUInt64]
        rw [hlatest, Nat.add_comm 1]
        exact congrArg (fun n => [n]) (UInt64.ofNat_add ..).symm
      · rw [issuedBy_concat_of_ne hd]
        exact ha.ids_eq d
    · intro t ht
      exact List.mem_append.2 ((List.mem_append.1 ht).imp_left (ha.tickets_mem t))
  | copyTicket ht =>
    rw [List.append_nil]
    refine { ha with tickets_mem := ?_ }
    intro u hu
    rcases List.mem_append.1 hu with hu | hu
    · exact ha.tickets_mem u hu
    · rw [List.mem_singleton.1 hu]
      exact ha.tickets_mem _ ht

theorem run (ha : h.Accurate issues) (hr : h.Run js h') : h'.Accurate (issues ++ js) := by
  induction hr with
  | refl => rwa [List.append_nil]
  | tail _ hs ih =>
    rw [← List.append_assoc]
    exact ih.step hs

section
variable {c : Nat} (ha : h.Accurate issues) (hbound : (issuedBy c issues).length < 2 ^ 64)
include ha hbound

theorem toNat_latest : (h.office.latest c).toNat = (issuedBy c issues).length := by
  rw [ha.latest_eq]
  exact UInt64.toNat_ofNat_of_lt' hbound

/-- A counter numbers its tickets from 1 on. -/
theorem map_toNat_id : (issuedBy c issues).map (·.id.toNat) = List.range' 1 (issuedBy c issues).length := by
  have hids := congrArg (List.map UInt64.toNat) (ha.ids_eq c)
  rw [List.map_map, List.map_map] at hids
  refine hids.trans ((List.map_congr_left ?_).trans (List.map_id _))
  intro n hn
  have hlt : n < 2 ^ 64 := by
    have := List.mem_range'_1.1 hn
    omega
  exact UInt64.toNat_ofNat_of_lt' hlt

end

/-- A ticket is stale if another one followed on its counter. -/
theorem isStale_iff (ha : h.Accurate issues) {before after : List Ticket} {t : Ticket}
    (hissues : issues = before ++ t :: after) (hbound : (issuedBy t.counter issues).length < 2 ^ 64) :
    h.office.isStale t ↔ ∃ u ∈ after, u.counter = t.counter := by
  have hsplit : issuedBy t.counter issues = issuedBy t.counter before ++ t :: issuedBy t.counter after := by
    rw [hissues, issuedBy_append]
    simp [issuedBy]
  have hlength : (issuedBy t.counter issues).length =
      (issuedBy t.counter before).length + 1 + (issuedBy t.counter after).length := by
    rw [hsplit, List.length_append, List.length_cons]
    omega
  have hid : t.id.toNat = (issuedBy t.counter before).length + 1 := by
    have hids := congrArg (·[(issuedBy t.counter before).length]?) (ha.map_toNat_id hbound)
    rw [List.getElem?_map, hsplit, List.getElem?_append_right (Nat.le_refl _), Nat.sub_self, ← hsplit, hlength,
      List.getElem?_range' (by omega)] at hids
    have hid : t.id.toNat = 1 + 1 * (issuedBy t.counter before).length := Option.some.inj hids
    omega
  have hafter : (∃ u ∈ after, u.counter = t.counter) ↔ (issuedBy t.counter after).length ≠ 0 := by
    rw [Ne, List.length_eq_zero_iff, issuedBy_eq_nil]
    simp
  rw [TicketOffice.isStale_iff, hafter, Ne, ← UInt64.toNat_inj, ha.toNat_latest hbound, hid, hlength]
  omega

end Accurate

/-- Issues from other counters do not matter to a ticket. -/
theorem Step.isStale_eq {h h' : Host} {js : List Ticket} (hs : h.Step js h') {t : Ticket}
    (ht : ∀ u ∈ js, u.counter ≠ t.counter) : h'.office.isStale t = h.office.isStale t := by
  cases hs with
  | newCounter => rw [TicketOffice.isStale, TicketOffice.latest_newCounter, TicketOffice.isStale]
  | copyHandle | copyTicket => rfl
  | @issue c hc =>
    have hne : c ≠ t.counter := ht _ List.mem_cons_self
    rw [TicketOffice.isStale, TicketOffice.latest_issue_of_ne _ hne, TicketOffice.isStale]

theorem Run.isStale_eq {h h' : Host} {js : List Ticket} (hr : h.Run js h') {t : Ticket}
    (ht : ∀ u ∈ js, u.counter ≠ t.counter) : h'.office.isStale t = h.office.isStale t := by
  induction hr with
  | refl => rfl
  | tail _ hs ih =>
    rw [hs.isStale_eq fun u hu => ht u (List.mem_append_right _ hu), ih fun u hu => ht u (List.mem_append_left _ hu)]

end Host

/-! ## Scans with tickets -/

/-- There is a question as soon as there is a signature. -/
theorem questions_pos {text : String} {options : ScanOptions} :
    0 < questions text options ↔ signatures options.signatureMode text ≠ [] := by
  rw [questions, Survey.questions, ← List.length_pos_iff]
  constructor
  · intro h
    apply Nat.pos_of_ne_zero
    intro hzero
    rw [List.length_eq_zero_iff.1 hzero] at h
    exact Nat.lt_irrefl 0 h
  · omega

/-- A scan with a stale ticket stops at its first question, if it has one. -/
theorem scanUntil_interrupt (o : TicketOffice) (t : Ticket) (text : String) (options : ScanOptions) :
    (scanUntil text options (o.interrupt t)).1 =
      if o.isStale t ∧ signatures options.signatureMode text ≠ [] then none else some (scan text options) := by
  rw [scanUntil_eq, scan_eq]
  cases hfirst : (o.interrupt t).firstStop? 0 (questions text options) with
  | none =>
    have hnone := Interrupt.firstStop?_eq_none.1 hfirst
    rw [if_neg]
    rintro ⟨hstale, hsignatures⟩
    have hfalse : o.isStale t = false := hnone 0 (questions_pos.2 hsignatures)
    rw [hstale] at hfalse
    cases hfalse
  | some k =>
    obtain ⟨hk, hstop, -⟩ := Interrupt.firstStop?_eq_some.1 hfirst
    rw [if_pos ⟨hstop, questions_pos.1 (Nat.zero_lt_of_lt hk)⟩]

/-! ## Main theorem -/

/-- In every run, each counter numbers its tickets 1, 2, 3 and so on and holds the number of the last
one. All that is held are copies of these. A ticket is stale if and only if its counter has issued
another one since; so of the tickets of a counter one at most is live, a stale one never comes back
to life, and what happens on other counters does not matter. A scan with a ticket has no result if
and only if the ticket is stale and there is a signature in the text, and otherwise that of a scan
without. -/
theorem Host.tickets_live_until_next {h : Host} {issues : List Ticket} (hr : Run {} issues h)
    (hbound : ∀ c, (issuedBy c issues).length < 2 ^ 64) :
    (∀ c, (issuedBy c issues).map (·.id.toNat) = List.range' 1 (issuedBy c issues).length ∧
      (h.office.latest c).toNat = (issuedBy c issues).length) ∧
    (∀ t ∈ h.tickets, t ∈ issues ∧ ∀ before after, issues = before ++ t :: after →
      (h.office.isStale t ↔ ∃ u ∈ after, u.counter = t.counter)) ∧
    (∀ t u : Ticket, t.counter = u.counter →
      h.office.isStale t = false → h.office.isStale u = false → t = u) ∧
    (∀ t ∈ h.tickets, ∀ later h', h.Run later h' →
      ((issuedBy t.counter (issues ++ later)).length < 2 ^ 64 → h.office.isStale t → h'.office.isStale t) ∧
      ((∀ u ∈ later, u.counter ≠ t.counter) → h'.office.isStale t = h.office.isStale t)) ∧
    (∀ t ∈ h.tickets, ∀ text options, (scanUntil text options (h.office.interrupt t)).1 =
      if h.office.isStale t ∧ signatures options.signatureMode text ≠ [] then none
      else some (scan text options)) := by
  have ha : h.Accurate issues := accurate_start.run hr
  refine ⟨fun c => ⟨ha.map_toNat_id (hbound c), ha.toNat_latest (hbound c)⟩, ?_, ?_, ?_, ?_⟩
  · intro t ht
    exact ⟨ha.tickets_mem t ht, fun before after hissues => ha.isStale_iff hissues (hbound t.counter)⟩
  · intro t u hcounter hlive hlive'
    have hid : h.office.latest t.counter = t.id := by simpa [TicketOffice.isStale] using hlive
    have hid' : h.office.latest u.counter = u.id := by simpa [TicketOffice.isStale] using hlive'
    obtain ⟨c, n⟩ := t
    obtain ⟨d, m⟩ := u
    dsimp only at hcounter hid hid'
    rw [hcounter, ← hid, hcounter, hid']
  · intro t ht later h' hlater
    refine ⟨fun hbound' hstale => ?_, hlater.isStale_eq⟩
    obtain ⟨before, after, hissues⟩ := List.append_of_mem (ha.tickets_mem t ht)
    obtain ⟨u, hu, hcounter⟩ := (ha.isStale_iff hissues (hbound t.counter)).1 hstale
    have hissues' : issues ++ later = before ++ t :: (after ++ later) := by
      rw [hissues, List.append_assoc, List.cons_append]
    exact ((ha.run hlater).isStale_iff hissues' hbound').2 ⟨u, List.mem_append_left later hu, hcounter⟩
  · intro t _ text options
    exact scanUntil_interrupt h.office t text options

theorem Host.second_ticket_makes_first_stale :
    Run {} [⟨0, 1⟩, ⟨0, 2⟩, ⟨1, 1⟩] ⟨⟨[2, 1]⟩, [0, 0, 1], [⟨0, 1⟩, ⟨0, 2⟩, ⟨1, 1⟩]⟩ ∧
      (∀ c, (issuedBy c [⟨0, 1⟩, ⟨0, 2⟩, ⟨1, 1⟩]).length < 2 ^ 64) ∧
      (⟨[2, 1]⟩ : TicketOffice).isStale ⟨0, 1⟩ ∧ ¬ (⟨[2, 1]⟩ : TicketOffice).isStale ⟨0, 2⟩ ∧
      (scanUntil "f()" {} ((⟨[2, 1]⟩ : TicketOffice).interrupt ⟨0, 1⟩)).1 = none := by
  have hr : Run {} [⟨0, 1⟩, ⟨0, 2⟩, ⟨1, 1⟩] ⟨⟨[2, 1]⟩, [0, 0, 1], [⟨0, 1⟩, ⟨0, 2⟩, ⟨1, 1⟩]⟩ := by
    have h₁ : Run {} [] ⟨⟨[0]⟩, [0], []⟩ := .tail .refl .newCounter
    have h₂ : Run {} [] ⟨⟨[0]⟩, [0, 0], []⟩ := .tail h₁ (.copyHandle (by decide : 0 ∈ [0]))
    have h₃ : Run {} [⟨0, 1⟩] ⟨⟨[1]⟩, [0, 0], [⟨0, 1⟩]⟩ := .tail h₂ (.issue (by decide : 0 ∈ [0, 0]))
    have h₄ : Run {} [⟨0, 1⟩, ⟨0, 2⟩] ⟨⟨[2]⟩, [0, 0], [⟨0, 1⟩, ⟨0, 2⟩]⟩ := .tail h₃ (.issue (by decide : 0 ∈ [0, 0]))
    have h₅ : Run {} [⟨0, 1⟩, ⟨0, 2⟩] ⟨⟨[2, 0]⟩, [0, 0, 1], [⟨0, 1⟩, ⟨0, 2⟩]⟩ := .tail h₄ .newCounter
    exact .tail h₅ (.issue (by decide : 1 ∈ [0, 0, 1]))
  have hbound (c : Nat) : (issuedBy c [⟨0, 1⟩, ⟨0, 2⟩, ⟨1, 1⟩]).length < 2 ^ 64 :=
    Nat.lt_of_le_of_lt (List.length_filter_le ..) (by decide)
  obtain ⟨-, hstale, -, -, hscan⟩ := tickets_live_until_next hr hbound
  have hfirst := ((hstale ⟨0, 1⟩ (by decide)).2 [] [⟨0, 2⟩, ⟨1, 1⟩] rfl).2 (by decide)
  have hsecond := mt ((hstale ⟨0, 2⟩ (by decide)).2 [⟨0, 1⟩] [⟨1, 1⟩] rfl).1 (by decide)
  exact ⟨hr, hbound, hfirst, hsecond, (hscan ⟨0, 1⟩ (by decide) "f()" {}).trans (if_pos ⟨hfirst, by decide +kernel⟩)⟩

end BodyLength

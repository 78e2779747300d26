import Realm.Proofs.Amount.Nearest
import Realm.Proofs.Ledger.Initial
import Realm.Proofs.Ledger.Payment
import Realm.Proofs.Requirement
import Realm.Proofs.Session.Perform
import Realm.Proofs.Session.Players

/-!
# What can be afforded and what can be paid

Before an action is performed its costs are examined as requirements: there has to be at least as
much as the action costs. Then they are paid through the ledger, which asks for something else, that
what is left is within the bounds and that the resource may be written at all. The two agree about
resources that are not derived and that content does not keep above zero (`payment_agrees`); about
others they need not, and then the examination says nothing and the payment fails
(`payment_refused`).

The one answer follows from the other because a player's ledger is sound where the declared bounds
are usable, and because nothing in a session ever moves a lower bound (`Reachable.soundAt`).
-/

set_option autoImplicit false

namespace Realm

variable {α : Type} [Amount α]

/-! ## Examining -/

/-- There is at least as much as a cost. -/
def costComparison (entry : String × α) : Comparison α :=
  { left := .source (.resource entry.1), comparator := .atLeast, right := .literal entry.2 }

/-- What a player is told of a cost that is too high. -/
def costUnmet (content : Content α) (rules : Rules) (player : Player α) (entry : String × α) :
    Unmet α :=
  let details : Shortfall α := { left := player.resources.amount entry.1, right := entry.2 }
  { requirement := costRequirement entry
    details
    message := (costComparison entry).complaint content rules details }

/-- Whether a player has as much as something costs. -/
def Player.affords (player : Player α) (entry : String × α) : Bool :=
  Comparator.atLeast.holds (player.resources.amount entry.1) entry.2

namespace Requirement

variable {content : Content α} {rules : Rules} {player : Player α}

theorem read_costRequirement (entry : String × α) :
    (costRequirement entry).read
      = if Amount.isFinite entry.2 = true then .ok (costComparison entry)
        else .error (.invalidParams compareKey .malformed) := by
  unfold read
  rw [show (costRequirement entry).comparison?
    = if true = true ∧ Amount.isFinite entry.2 = true then .ok (costComparison entry)
      else .error .malformed from comparison?_compare (costComparison entry)]
  by_cases hfinite : Amount.isFinite entry.2 = true
  · rw [if_pos ⟨rfl, hfinite⟩, if_pos hfinite]
    rfl
  · rw [if_neg (by simp [hfinite]), if_neg hfinite]
    rfl

/-- A cost that is examined with an answer is finite and of a registered resource, and the answer
    is whether there is as much. -/
theorem check_cost {entry : String × α} {answer : Option (Unmet α)}
    (h : check content rules player (costRequirement entry) = .ok answer) :
    Amount.isFinite entry.2 = true ∧ content.catalog.contains entry.1 = true ∧
      answer = if player.affords entry = true then none
        else some (costUnmet content rules player entry) := by
  unfold check at h
  obtain ⟨comparison, hread, h⟩ := Outcome.bind_eq_ok.1 h
  rw [read_costRequirement] at hread
  split at hread
  · rename_i hfinite
    cases hread
    obtain ⟨left, hleft, h⟩ := Outcome.bind_eq_ok.1 h
    obtain ⟨right, hright, h⟩ := Outcome.bind_eq_ok.1 h
    cases hright
    obtain ⟨known, hknown, hamount⟩ := Outcome.bind_eq_ok.1 (Outcome.mapError_eq_ok.1 hleft)
    cases hamount
    have hcontains : content.catalog.contains entry.1 = true := by
      unfold Catalog.requireKnown at hknown
      split at hknown
      · assumption
      · cases hknown
    refine ⟨hfinite, hcontains, ?_⟩
    split at h <;> rename_i hholds
    · cases h
      exact (if_pos hholds).symm
    · cases h
      exact (if_neg hholds).symm
  · cases hread

/-- When all requirements are examined, each has had an answer, and the unmet ones are told. -/
theorem answered_of_evaluate {requirements : List (Requirement α)} {unmet : List (Unmet α)}
    (h : evaluate content rules player .collectAll requirements = .ok unmet) :
    ∀ requirement ∈ requirements, ∃ answer, check content rules player requirement = .ok answer ∧
      ∀ failure, answer = some failure → failure ∈ unmet := by
  induction requirements generalizing unmet with
  | nil =>
    intro requirement hmem
    cases hmem
  | cons first rest ih =>
    unfold evaluate at h
    obtain ⟨answer, hanswer, h⟩ := Outcome.bind_eq_ok.1 h
    rw [List.forall_mem_cons]
    cases answer with
    | none =>
      refine ⟨⟨none, hanswer, ?_⟩, ih h⟩
      intro failure hfailure
      cases hfailure
    | some failure =>
      obtain ⟨others, hothers, h⟩ := Outcome.bind_eq_ok.1 h
      cases h
      refine ⟨⟨some failure, hanswer, ?_⟩, ?_⟩
      · intro other hother
        cases hother
        exact List.mem_cons_self
      · intro requirement hmem
        obtain ⟨answer, hcheck, htold⟩ := ih hothers requirement hmem
        exact ⟨answer, hcheck, fun other hother => List.mem_cons_of_mem _ (htold other hother)⟩

end Requirement

/-! ## Paying -/

section

variable {setting : Setting α} {draft : Draft α} {entry : String × α}

theorem payCost_eq (setting : Setting α) (entry : String × α) :
    payCost setting entry
      = Draft.record (Ledger.apply setting.content.catalog (Ledger.payment entry)) := rfl

theorem payCost_run (h : draft.player.resources.Pays setting.content.catalog entry) :
    ∃ after, (payCost setting entry).run draft = (.ok (), after) ∧
      after.player.resources = draft.player.resources.store setting.content.catalog entry.1
        (draft.player.resources.amount entry.1 + -entry.2) := by
  refine ⟨(payCost setting entry).after draft, Attempt.run_eq_of_outcome ?_, ?_⟩
  · rw [payCost_eq, Draft.record_outcome, Attempt.outcome_def, h.run]
    rfl
  · rw [payCost_eq, Draft.record_player, Attempt.after_def, h.run]

theorem pays_of_payCost (h : (payCost setting entry).outcome draft = .ok ()) :
    draft.player.resources.Pays setting.content.catalog entry := by
  rw [payCost_eq, Draft.record_outcome] at h
  cases hpaid : (Ledger.apply setting.content.catalog (Ledger.payment entry)).outcome
      draft.player.resources with
  | error error =>
    rw [hpaid] at h
    cases h
  | ok change => exact Ledger.pays_of_run (Attempt.run_eq_of_outcome hpaid)

/-- Paying fails in no other way than the ledger does. -/
theorem ledger_of_payCosts_error {costs : List (String × α)} {error : EffectError α}
    (h : (costs.forM (payCost setting)).outcome draft = .error error) :
    ∃ reason, error = .ledger reason := by
  have hsafe : (costs.forM (payCost setting)).SafeAt (fun _ => True)
      (fun error => ¬ ∃ reason, error = .ledger reason) draft := by
    refine Attempt.safeAt_forM (fun entry _ draft _ => ⟨trivial, fun error herror => ?_⟩) trivial
    rw [payCost_eq, Draft.record_outcome] at herror
    cases hpaid : (Ledger.apply setting.content.catalog (Ledger.payment entry)).outcome
        draft.player.resources with
    | error reason =>
      rw [hpaid] at herror
      cases herror
      exact not_not_intro ⟨reason, rfl⟩
    | ok change =>
      rw [hpaid] at herror
      cases herror
  exact not_not.1 (hsafe.2 error h)

/-- Costs of different resources are paid exactly if each of them can be paid from the ledger there
    is before the first. -/
theorem payCosts_eq_ok (hc : setting.content.catalog.Consistent) {costs : List (String × α)}
    (hnodup : (costs.map (·.1)).Nodup) :
    (costs.forM (payCost setting)).outcome draft = .ok () ↔
      ∀ entry ∈ costs, draft.player.resources.Pays setting.content.catalog entry := by
  induction costs generalizing draft with
  | nil => exact iff_of_true rfl fun entry hentry => (List.not_mem_nil hentry).elim
  | cons entry rest ih =>
    rw [List.map_cons, List.nodup_cons] at hnodup
    obtain ⟨hnew, hrest⟩ := hnodup
    rw [List.forall_mem_cons, show (entry :: rest).forM (payCost setting)
      = (payCost setting entry >>= fun _ => rest.forM (payCost setting)) from rfl]
    by_cases hpays : draft.player.resources.Pays setting.content.catalog entry
    · obtain ⟨after, hrun, hstored⟩ := payCost_run hpays
      rw [Attempt.outcome_def, Attempt.run_bind_of_ok hrun, ← Attempt.outcome_def, ih hrest, hstored]
      -- No two costs are of one resource, so this payment leaves the others as payable as before.
      have hothers : ∀ other ∈ rest,
          ((draft.player.resources.store setting.content.catalog entry.1
            (draft.player.resources.amount entry.1 + -entry.2)).Pays setting.content.catalog other ↔
          draft.player.resources.Pays setting.content.catalog other) := by
        intro other hother
        refine Ledger.pays_store_iff hc ?_
        intro heq
        exact hnew (heq ▸ List.mem_map_of_mem hother)
      constructor
      · intro h
        exact ⟨hpays, fun other hother => (hothers other hother).1 (h other hother)⟩
      · intro h other hother
        exact (hothers other hother).2 (h.2 other hother)
    · refine iff_of_false (fun h => hpays ?_) fun h => hpays h.1
      obtain ⟨paid, between, hpaid, -⟩ := Attempt.run_bind_eq_ok.1 (Attempt.run_eq_of_outcome h)
      refine pays_of_payCost ?_
      rw [Attempt.outcome_def, hpaid]

end

/-! ## Resources that can be spent -/

/-- Content lets a resource be spent to the last: it is not derived, and the bounds declared for it
    are usable and do not keep it above zero. -/
structure Catalog.Spendable (catalog : Catalog α) (id : String) : Prop where
  underived : catalog.isParent id = false
  bounds : ∃ resource, catalog.definition? id = some resource ∧
    resource.bounds.areUsable = true ∧ ∀ lower, resource.bounds.lower = some lower → lower ≤ 0

/-- In a session, a resource with usable bounds has a finite amount within them, and its lower bound
    is the declared one at any time. -/
theorem Session.Reachable.soundAt [Amount.Ordered α] {session : Session α}
    (h : session.Reachable) (hc : session.content.catalog.Consistent)
    (hzero : Amount.isFinite (0 : α) = true) {id : String} {resource : Resource α}
    (hfind : session.content.catalog.definition? id = some resource)
    (hid : session.content.catalog.isParent id = false)
    (husable : resource.bounds.areUsable = true) :
    ∀ player ∈ session.players, player.resources.SoundAt id ∧
      (player.resources.boundsOf id).lower = resource.bounds.lower := by
  refine h.holds (fun player => player.resources.SoundAt id ∧
    (player.resources.boundsOf id).lower = resource.bounds.lower) ?_ ?_
  · intro owner name
    have hseeded := Ledger.seededAt_initial hc hfind hid
    exact ⟨Ledger.soundAt_initial hc hzero hfind hid husable, congrArg Bounds.lower hseeded.bounds⟩
  · intro before after hstep hbefore
    have hwrite : ∀ (ledger : Ledger α) (call : Ledger.Write α), call.KeepsLower ledger →
        (ledger.SoundAt id ∧ (ledger.boundsOf id).lower = resource.bounds.lower) →
        ((call.attempt session.content.catalog).after ledger).SoundAt id ∧
          (((call.attempt session.content.catalog).after ledger).boundsOf id).lower
            = resource.bounds.lower := by
      intro ledger call hlower hledger
      exact ⟨hledger.1.write hc hid call, (hlower.after id).trans hledger.2⟩
    exact hstep.ledger hwrite hbefore

theorem pos_of_mem_totalCosts {action : Action α} {catalog : Catalog α} {entry : String × α}
    (h : entry ∈ (action.totalCosts catalog).toList) : 0 < entry.2 := by
  unfold Action.totalCosts Table.filter Table.toList at h
  exact of_decide_eq_true (List.mem_filter.1 h).2

open Binary64 in
/-- An affordable cost is paid where zero is not below the bounds: what is left lies between zero
    and what there was. -/
theorem Ledger.pays_of_affordable {catalog : Catalog Binary64} {ledger : Ledger Binary64}
    {entry : String × Binary64} (hwritable : catalog.requireWritable entry.1 = .ok ())
    (hsound : ledger.SoundAt entry.1)
    (hlower : ∀ lower, (ledger.boundsOf entry.1).lower = some lower → lower ≤ 0)
    (hcost : Amount.isFinite entry.2 = true) (hpos : 0 < entry.2)
    (haffordable : entry.2 ≤ ledger.amount entry.1) : ledger.Pays catalog entry := by
  obtain ⟨hrest, hzero, hless⟩ := take_within hsound.amount hcost hpos haffordable
  obtain ⟨-, hupper⟩ := Bounds.contains_iff.1 hsound.within
  refine ⟨hwritable, hcost, hrest, Bounds.contains_iff.2 ⟨?_, ?_⟩⟩
  · intro lower hl
    exact Amount.Ordered.le_trans (hsound.bounds.lower lower hl) isFinite_zero hrest
      (hlower lower hl) hzero
  · intro upper hu
    exact Amount.Ordered.le_trans hrest hsound.amount (hsound.bounds.upper upper hu) hless
      (hupper upper hu)

/-! ## Examining and paying -/

namespace Session

section

variable {session : Session α} {player : Player α} {action : Action α}

theorem pays_iff_payBill (hc : session.content.catalog.Consistent) :
    (session.payBill action).outcome { player } = .ok () ↔
      ∀ entry ∈ action.bill session.content.catalog,
        player.resources.Pays session.content.catalog entry :=
  payCosts_eq_ok hc (Table.nodup_keys (action.totalCosts session.content.catalog))

/-- Costs that are examined with an answer are finite and of registered resources, and those that
    are too high are told. -/
theorem cost_of_examine {requirements : List (Requirement α)} {unmet : List (Unmet α)}
    (hanswer : session.examine player action requirements = .ok unmet) {entry : String × α}
    (hentry : entry ∈ action.bill session.content.catalog) :
    Amount.isFinite entry.2 = true ∧ session.content.catalog.contains entry.1 = true ∧
      (player.affords entry = false →
        costUnmet session.content session.config.rules player entry ∈ unmet) := by
  obtain ⟨answer, hcheck, htold⟩ := Requirement.answered_of_evaluate hanswer
    (costRequirement entry) (List.mem_append_right _ (List.mem_map_of_mem hentry))
  obtain ⟨hfinite, hknown, hunmet⟩ := Requirement.check_cost hcheck
  refine ⟨hfinite, hknown, fun hpoor => htold _ ?_⟩
  rw [hunmet, if_neg (by simp [hpoor])]

end

/-- If nothing is told, what can be spent to the last can be paid. -/
theorem Reachable.pays_of_spendable {session : Session Binary64} (h : session.Reachable)
    (hc : session.content.catalog.Consistent) {player : Player Binary64}
    (hplayer : player ∈ session.players) {action : Action Binary64}
    {requirements : List (Requirement Binary64)}
    (hanswer : session.examine player action requirements = .ok [])
    {entry : String × Binary64} (hentry : entry ∈ action.bill session.content.catalog)
    (hspend : session.content.catalog.Spendable entry.1) :
    player.resources.Pays session.content.catalog entry := by
  obtain ⟨hfinite, hknown, htold⟩ := cost_of_examine hanswer hentry
  obtain ⟨hunderived, resource, hfind, husable, hlower⟩ := hspend
  obtain ⟨hsound, hdeclared⟩ :=
    h.soundAt hc Binary64.isFinite_zero hfind hunderived husable player hplayer
  -- Nothing has been told, so there is as much as the cost.
  have haffords : player.affords entry = true := by
    cases hpoor : player.affords entry with
    | true => rfl
    | false => cases htold hpoor
  have hwritable := Catalog.requireWritable_eq_ok.2 ⟨hknown, hunderived⟩
  refine Ledger.pays_of_affordable hwritable hsound ?_ hfinite (pos_of_mem_totalCosts hentry)
    ((Binary64.isGE_order_iff hsound.amount hfinite).1 haffords)
  rw [hdeclared]
  exact hlower

/-- **What is examined is what is paid, within limits.** When an action is examined, every cost that
    is too high is told, and if anything is told the action is rejected. If nothing is told and each
    cost can be paid, all of them are paid, and the call ends as the effects end after that; but if
    there is one that cannot be paid, the call fails in the ledger. There is none, if content lets
    the resources of the costs be spent to the last. -/
theorem payment_agrees {session : Session Binary64} (hreachable : session.Reachable)
    {resources : List (Resource Binary64)} {groups : List Group}
    (hbuild : Catalog.build resources groups = .ok session.content.catalog)
    {id : String} {params : ActionParams Binary64} {player : Player Binary64}
    {action : Action Binary64} {effects : List (Effect Binary64)}
    {requirements : List (Requirement Binary64)}
    (hasked : session.Asked id params player action effects requirements)
    {unmet : List (Unmet Binary64)}
    (hanswer : session.examine player action requirements = .ok unmet) :
    (∀ entry ∈ action.bill session.content.catalog, player.affords entry = false →
      costUnmet session.content session.config.rules player entry ∈ unmet) ∧
    (unmet ≠ [] → (perform id params).run session = (.ok (.rejected action.id unmet), session)) ∧
    (unmet = [] →
      ((∀ entry ∈ action.bill session.content.catalog,
          player.resources.Pays session.content.catalog entry) →
        ∃ paid, (session.payBill action).run { player } = (.ok (), paid) ∧
          (perform id params).run session = session.conclude action
            (carryOut session.setting (applyAll session.setting effects) paid)) ∧
      ((∃ entry ∈ action.bill session.content.catalog,
          ¬ player.resources.Pays session.content.catalog entry) →
        ∃ reason, (perform id params).run session
          = (.error (.actionFailed action.id (.ledger reason)), session)) ∧
      ((∀ entry ∈ action.bill session.content.catalog,
          session.content.catalog.Spendable entry.1) →
        ∀ entry ∈ action.bill session.content.catalog,
          player.resources.Pays session.content.catalog entry)) := by
  have hc := Catalog.build_consistent hbuild
  refine ⟨fun entry hentry => (cost_of_examine hanswer hentry).2.2, hasked.run_rejected hanswer,
    ?_⟩
  rintro rfl
  refine ⟨fun hpays => ?_, fun hunpaid => ?_, fun hspend entry hentry => ?_⟩
  · have hpaid := Attempt.run_eq_of_outcome ((pays_iff_payBill hc).2 hpays)
    exact ⟨_, hpaid, hasked.run_paid hanswer hpaid⟩
  · cases hpaid : (session.payBill action).outcome { player } with
    | ok done =>
      obtain ⟨entry, hentry, hnot⟩ := hunpaid
      exact (hnot ((pays_iff_payBill hc).1 hpaid entry hentry)).elim
    | error error =>
      obtain ⟨reason, rfl⟩ := ledger_of_payCosts_error hpaid
      exact ⟨reason, hasked.run_unpaid hanswer hpaid⟩
  · exact hreachable.pays_of_spendable hc (List.mem_of_getElem? hasked.active) hanswer hentry
      (hspend entry hentry)

end Session

/-! ## A market

Gold can be bought with at three pieces a time. The player starts with five. -/

namespace Sample

/-- Gold, kept at or above a lower bound. -/
def goldAbove (lower : Option Binary64) : Resource Binary64 :=
  { id := "gold", label := "Gold", bounds := { lower } }

def buying : Action Binary64 :=
  { id := "buy", name := "Buy", costs := Table.empty.insert "gold" (Amount.ofInt 3) }

def market (lower : Option Binary64) : Content Binary64 :=
  { catalog := (Catalog.build [goldAbove lower] []).toOption.getD .empty
    actions := Table.empty.insert "buy" buying }

theorem build_market (lower : Option Binary64) :
    Catalog.build [goldAbove lower] [] = .ok (market lower).catalog := rfl

def marketDay : Config Binary64 :=
  { phases := [{ Phase.named "main" with action := true }]
    start := { resources := Table.empty.insert "gold" (Amount.ofInt 5) } }

/-- Whether the player whose turn it is may act and hears of nothing that keeps him from buying. -/
def mayBuy (session : Session Binary64) : Bool :=
  match session.clock.phase?, session.activePlayer? with
  | some phase, some player =>
    phase.action && match session.examine player buying [] with
      | .ok [] => true
      | _ => false
  | _, _ => false

theorem asked_of_mayBuy {session : Session Binary64} {lower : Option Binary64}
    (hcontent : session.content = market lower) (h : mayBuy session = true) :
    ∃ player, session.Asked "buy" .empty player buying [] [] ∧
      session.examine player buying [] = .ok [] := by
  unfold mayBuy at h
  split at h
  · rename_i phase player hphase hactive
    obtain ⟨hopen, hexamined⟩ := Bool.and_eq_true _ _ |>.mp h
    refine ⟨player, ⟨⟨phase, hphase, hopen⟩, hactive, ?_, rfl, rfl⟩, ?_⟩
    · rw [hcontent]
      rfl
    · split at hexamined
      · assumption
      · cases hexamined
  · cases h

/-- Whether the ledger refuses the payment. -/
def isRefused (session : Session Binary64) : Bool :=
  match (Session.perform "buy" .empty).outcome session with
  | .error (.actionFailed _ (.ledger (.boundViolation ..))) => true
  | _ => false

theorem outcome_of_isRefused {session : Session Binary64} (h : isRefused session = true) :
    ∃ action resource amount bounds, (Session.perform "buy" .empty).outcome session
      = .error (.actionFailed action (.ledger (.boundViolation resource amount bounds))) := by
  unfold isRefused at h
  split at h
  · rename_i action resource amount bounds houtcome
    exact ⟨action, resource, amount, bounds, houtcome⟩
  · cases h

/-- A game on the market that begins in a certain way. -/
theorem exists_marketDay (lower : Option Binary64) (test : Session Binary64 → Bool)
    (h : (Session.start marketDay (market lower) Operation.all).toOption.any test = true) :
    ∃ session, Session.start marketDay (market lower) Operation.all = .ok session ∧
      session.content = market lower ∧ test session = true := by
  cases hstart : Session.start marketDay (market lower) Operation.all with
  | error error =>
    rw [hstart] at h
    cases h
  | ok session =>
    rw [hstart] at h
    exact ⟨session, rfl, Session.content_of_start hstart, h⟩

theorem spendable_market : ∀ entry ∈ buying.bill (market none).catalog,
    (market none).catalog.Spendable entry.1 := by
  intro entry hentry
  have hgold : ∀ entry ∈ buying.bill (market none).catalog, entry.1 = "gold" := by decide +kernel
  rw [hgold entry hentry]
  refine ⟨by decide +kernel, goldAbove none, rfl, by decide +kernel, ?_⟩
  intro lower hlower
  cases hlower

end Sample

namespace Session

open Sample

/-- Where gold may be spent to the last, buying is paid for. -/
theorem payment_agrees_market :
    ∃ (session : Session Binary64) (player : Player Binary64), session.Reachable ∧
      Catalog.build [goldAbove none] [] = .ok session.content.catalog ∧
      session.Asked "buy" .empty player buying [] [] ∧
      session.examine player buying [] = .ok [] ∧
      ∃ paid, (session.payBill buying).run { player } = (.ok (), paid) ∧
        (perform "buy" .empty).run session = session.conclude buying
          (carryOut session.setting (applyAll session.setting []) paid) := by
  obtain ⟨session, hstart, hcontent, hbuy⟩ :=
    exists_marketDay none mayBuy (by decide +kernel)
  obtain ⟨player, hasked, hanswer⟩ := asked_of_mayBuy hcontent hbuy
  have hreachable := Reachable.start _ _ _ _ session hstart
  have hbuild : Catalog.build [goldAbove none] [] = .ok session.content.catalog := by
    rw [hcontent]
    exact build_market none
  obtain ⟨hpaid, -, hspend⟩ := (payment_agrees hreachable hbuild hasked hanswer).2.2 rfl
  refine ⟨session, player, hreachable, hbuild, hasked, hanswer, hpaid (hspend ?_)⟩
  rw [hcontent]
  exact spendable_market

/-- Where gold is kept at five, nothing speaks against buying with five, and the payment fails. -/
theorem payment_refused :
    ∃ session, start marketDay (market (some (Amount.ofInt 5))) Operation.all = .ok session ∧
      (∃ player, session.Asked "buy" .empty player buying [] [] ∧
        session.examine player buying [] = .ok []) ∧
      ∃ action resource amount bounds, (perform "buy" .empty).outcome session
        = .error (.actionFailed action (.ledger (.boundViolation resource amount bounds))) := by
  obtain ⟨session, hstart, hcontent, htest⟩ := exists_marketDay (some (Amount.ofInt 5))
    (fun session => mayBuy session && isRefused session) (by decide +kernel)
  obtain ⟨hbuy, hrefused⟩ := Bool.and_eq_true _ _ |>.mp htest
  exact ⟨session, hstart, asked_of_mayBuy hcontent hbuy, outcome_of_isRefused hrefused⟩

end Session

end Realm

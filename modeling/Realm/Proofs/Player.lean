import Realm.Player
import Realm.Proofs.Ledger.Finite
import Realm.Proofs.Skips.Records

/-!
# Players that are put away

Between two sessions a player is a record, and what comes out of the record should be the player
that went in. It is, up to the few things that a record cannot hold: `Player.Storable` lists them,
and a player is read back exactly if there is nothing of the kind about it
(`read_back_iff_storable`).

Most of the list is what a record of this format has no words for. There is no number for an amount
that is not finite, counts have a greatest value, and the fields of a record that nobody has read
come out in key order, whatever order they had. The one entry that is a matter of the game is the
skips: what is empty among them is dropped by reading, and no call leaves anything empty there
(`Skips.relational_afterAll`).

What is left out of a record because it has no value is read as having none, so no difference
between the two can be lost: an effect with remarks that say nothing has an empty record of them, an
effect without remarks has none.
-/

set_option autoImplicit false

namespace Realm

open Document

variable {α : Type} [Amount α]

/-! ## What can be put away -/

/-- The parameters are in order, and the count is one that a record can hold. -/
structure Effect.Storable (effect : Effect α) : Prop where
  params : effect.params.Ordered
  times : ∀ n, effect.times = some n → n ≤ countLimit

structure Passive.Storable (passive : Passive α) : Prop where
  effects : ∀ effect ∈ passive.effects, effect.Storable
  onPhase : ∀ phase effects, passive.onPhase.find? phase = some effects →
    ∀ effect ∈ effects, effect.Storable

structure Ledger.Storable (ledger : Ledger α) : Prop where
  amounts : ledger.AllFinite
  bounds : ∀ id bounds, ledger.bounds.find? id = some bounds → bounds.Finite

structure Player.Storable (player : Player α) : Prop where
  resources : player.resources.Storable
  lands : ∀ land ∈ player.lands, land.slots ≤ countLimit
  passives : ∀ active ∈ player.passives, active.definition.Storable
  skips : player.skips.Pruned
  landCounter : player.landCounter ≤ countLimit

/-! ## Effects -/

omit [Amount α] in
theorem Reconciliation.returns (policy : Reconciliation) :
    Returns (α := α) (oneOf? Reconciliation.names) (fun policy => .text policy.name) policy := by
  cases policy <;> rfl

omit [Amount α] in
theorem Effect.Note.returns (note : Effect.Note) :
    Returns (α := α) Effect.Note.ofDocument? Effect.Note.toJson note := by
  have hslots : slots? [["reconciliation"], ["source"]] (.ofJson (note.toJson : Json α))
      = some [(note.reconciliation.map (.text ·.name)).map ofJson,
          (note.source.map .text).map ofJson] := by
    refine slots?_of_eq_recordOf [("reconciliation", note.reconciliation.map (.text ·.name)),
      ("source", note.source.map .text)] ?_ (by simp)
    simp [Effect.Note.toJson, recordOf, optional_eq]
  have hpolicy : optional (α := α) (oneOf? Reconciliation.names)
      ((note.reconciliation.map (.text ·.name)).map ofJson) = some note.reconciliation :=
    (optional_eq_some_iff fun _ hnull => by cases hnull).2 fun policy _ => policy.returns
  unfold Returns Effect.Note.ofDocument?
  rw [hslots]
  simp [hpolicy, optional_text, -Option.map_map]

/-- An effect comes back if its parameters do and its count does. -/
theorem Effect.returns_iff {effect : Effect α} :
    Returns Effect.ofDocument? Effect.toJson effect ↔ effect.Storable := by
  obtain ⟨family, method, params, note, times⟩ := effect
  have hslots : slots? [["type"], ["method"], ["params"], ["meta"], ["repeat"]]
      (.ofJson (Effect.mk family method params note times).toJson)
      = some [some (.text family), some (.text method), some (.ofJson params),
        (note.map Note.toJson).map ofJson, (times.map .count).map ofJson] := by
    refine slots?_of_eq_recordOf [("type", some (.text family)), ("method", some (.text method)),
      ("params", some params), ("meta", note.map Note.toJson),
      ("repeat", times.map .count)] ?_ (by simp)
    simp [Effect.toJson, recordOf, optional_eq]
  have hnote : optional (α := α) Note.ofDocument? ((note.map Note.toJson).map ofJson)
      = some note :=
    (optional_eq_some_iff fun _ hnull => by cases hnull).2 fun note _ => note.returns
  have htimes : optional (α := α) count? ((times.map .count).map ofJson) = some times ↔
      ∀ n, times = some n → n ≤ countLimit := by
    rw [optional_eq_some_iff fun _ hnull => by cases hnull]
    exact forall₂_congr fun n _ => returns_count_iff
  unfold Returns Effect.ofDocument?
  rw [hslots]
  simp only [required, defaulted, text?, hnote, Option.bind_eq_bind, Option.bind_some,
    Option.bind_eq_some_iff, Option.pure_def, Option.some.injEq, Effect.mk.injEq, true_and,
    exists_eq_right_right, toJson_ofJson_iff, htimes]
  exact ⟨fun h => ⟨h.2, h.1⟩, fun h => ⟨h.times, h.params⟩⟩

theorem returns_effects_iff {effects : List (Effect α)} :
    Returns (list? Effect.ofDocument?) (Json.listOf Effect.toJson) effects ↔
      ∀ effect ∈ effects, effect.Storable := by
  rw [returns_listOf_iff]
  exact forall₂_congr fun _ _ => Effect.returns_iff

/-! ## Passives -/

/-- A passive comes back if its effects do. -/
theorem Passive.returns_iff {passive : Passive α} :
    Returns Passive.ofDocument? Passive.toJson passive ↔ passive.Storable := by
  obtain ⟨id, name, icon, detail, effects, onPhase, removeOnPhase⟩ := passive
  have hslots : slots? [["id"], ["name"], ["icon"], ["detail"], ["effects"], ["onPhase"],
        ["removeOnPhase"]]
      (.ofJson (Passive.mk id name icon detail effects onPhase removeOnPhase).toJson)
      = some [some (.text id), (name.map .text).map ofJson, (icon.map .text).map ofJson,
        (detail.map .text).map ofJson, some (.ofJson (Json.listOf Effect.toJson effects)),
        some (.ofJson (Json.ofEntries (Json.listOf Effect.toJson) onPhase.toList)),
        (removeOnPhase.map .text).map ofJson] := by
    refine slots?_of_eq_recordOf [("id", some (.text id)), ("name", name.map .text),
      ("icon", icon.map .text), ("detail", detail.map .text),
      ("effects", some (Json.listOf Effect.toJson effects)),
      ("onPhase", some (Json.ofEntries (Json.listOf Effect.toJson) onPhase.toList)),
      ("removeOnPhase", removeOnPhase.map .text)] ?_ (by simp)
    simp [Passive.toJson, recordOf, optional_eq]
  have heffects : Returns (list? Effect.ofDocument?) (Json.listOf Effect.toJson) effects ↔ _ :=
    returns_effects_iff
  have honPhase : Returns (table? (list? Effect.ofDocument?))
      (fun table => Json.ofEntries (Json.listOf Effect.toJson) table.toList) onPhase ↔ _ :=
    returns_ofEntries_iff
  simp only [returns_effects_iff] at honPhase
  unfold Returns at heffects honPhase ⊢
  unfold Passive.ofDocument?
  rw [hslots]
  simp only [required, defaulted, text?, optional_text, Option.bind_eq_bind, Option.bind_some,
    Option.bind_eq_some_iff, Option.pure_def, Option.some.injEq, Passive.mk.injEq, true_and,
    exists_eq_right_right, and_true, heffects, honPhase]
  exact ⟨fun h => ⟨h.1, h.2⟩, fun h => ⟨h.effects, h.onPhase⟩⟩

omit [Amount α] in
theorem PassiveTag.returns (tag : PassiveTag) :
    Returns (α := α) PassiveTag.ofDocument? PassiveTag.toJson tag := by
  have hslots : slots? [["source"], ["owner"], ["removeOnPhase"]] (.ofJson (tag.toJson : Json α))
      = some [(tag.source.map .text).map ofJson, (tag.owner.map .text).map ofJson,
          (tag.removeOnPhase.map .text).map ofJson] := by
    refine slots?_of_eq_recordOf [("source", tag.source.map .text), ("owner", tag.owner.map .text),
      ("removeOnPhase", tag.removeOnPhase.map .text)] ?_ (by simp)
    simp [PassiveTag.toJson, recordOf, optional_eq]
  unfold Returns PassiveTag.ofDocument?
  rw [hslots]
  simp [optional_text, -Option.map_map]

theorem ActivePassive.returns_iff {active : ActivePassive α} :
    Returns ActivePassive.ofDocument? ActivePassive.toJson active ↔
      active.definition.Storable := by
  obtain ⟨definition, tag⟩ := active
  have hslots : slots? [["definition"], ["meta"]] (.ofJson (ActivePassive.mk definition tag).toJson)
      = some [some (.ofJson definition.toJson), some (.ofJson (tag.toJson : Json α))] := rfl
  have hdefinition : Returns Passive.ofDocument? Passive.toJson definition ↔ _ :=
    Passive.returns_iff
  have htag := tag.returns (α := α)
  unfold Returns at hdefinition htag ⊢
  unfold ActivePassive.ofDocument?
  rw [hslots]
  simp [required, htag, Option.bind_eq_some_iff, hdefinition]

/-! ## Lands -/

omit [Amount α] in
theorem Land.returns_iff {land : Land} :
    Returns (α := α) Land.ofDocument? Land.toJson land ↔ land.slots ≤ countLimit := by
  obtain ⟨id, slots, tilled, developments⟩ := land
  have hslots : slots? [["id"], ["slotsMax"], ["tilled"], ["developments"]]
      (.ofJson ((Land.mk id slots tilled developments).toJson : Json α))
      = some [some (.text id), some (.ofJson (.count slots)), some (.bool tilled),
          some (.ofJson (.texts developments))] := rfl
  have hcount := returns_count_iff (α := α) (n := slots)
  have hdevelopments := returns_texts (α := α) developments
  unfold Returns at hcount hdevelopments ⊢
  unfold Land.ofDocument?
  rw [hslots]
  simp [required, defaulted, text?, bool?, hdevelopments, Option.bind_eq_some_iff, hcount]

/-! ## Ledgers -/

theorem Bounds.returns_iff {bounds : Bounds α} :
    Returns Bounds.ofDocument? Bounds.toJson bounds ↔ bounds.Finite := by
  obtain ⟨lower, upper⟩ := bounds
  have hslots : slots? [["lowerBound"], ["upperBound"]] (.ofJson (Bounds.mk lower upper).toJson)
      = some [(lower.map .amount).map ofJson, (upper.map .amount).map ofJson] := by
    refine slots?_of_eq_recordOf [("lowerBound", lower.map .amount),
      ("upperBound", upper.map .amount)] ?_ (by simp)
    simp [Bounds.toJson, recordOf, optional_eq]
  -- An amount that is written as null is not finite, and null is no amount.
  have hbound : ∀ bound : Option α, optional amount? ((bound.map .amount).map ofJson) = some bound ↔
      ∀ given, bound = some given → Amount.isFinite given = true := by
    intro bound
    rw [optional_eq_some_iff]
    · exact forall₂_congr fun given _ => returns_amount_iff
    · intro given hnull hback
      rw [Json.amount, if_pos (returns_amount_iff.1 hback)] at hnull
      cases hnull
  unfold Returns Bounds.ofDocument?
  rw [hslots]
  simp only [Option.bind_eq_bind, Option.bind_some, Option.bind_eq_some_iff, Option.pure_def,
    Option.some.injEq, Bounds.mk.injEq, exists_eq_right_right, hbound]
  exact ⟨fun h => ⟨h.1, h.2⟩, fun h => ⟨h.lower, h.upper⟩⟩

/-- A ledger comes back if all its numbers are finite. -/
theorem Ledger.returns_iff {ledger : Ledger α} :
    Returns Ledger.ofDocument? Ledger.toJson ledger ↔ ledger.Storable := by
  obtain ⟨amounts, bounds⟩ := ledger
  have hslots : slots? [["amounts"], ["bounds"]] (.ofJson (Ledger.mk amounts bounds).toJson)
      = some [some (.ofJson (Json.ofEntries .amount amounts.toList)),
          some (.ofJson (Json.ofEntries Bounds.toJson bounds.toList))] := rfl
  have hamounts : Returns (table? amount?) (fun table => Json.ofEntries .amount table.toList)
      amounts ↔ _ := returns_ofEntries_iff
  have hbounds : Returns (table? Bounds.ofDocument?)
      (fun table => Json.ofEntries Bounds.toJson table.toList) bounds ↔ _ := returns_ofEntries_iff
  simp only [returns_amount_iff] at hamounts
  simp only [Bounds.returns_iff] at hbounds
  unfold Returns at hamounts hbounds ⊢
  unfold Ledger.ofDocument?
  rw [hslots]
  simp only [required, defaulted, Option.bind_eq_bind, Option.bind_some, Option.bind_eq_some_iff,
    Option.pure_def, Option.some.injEq, Ledger.mk.injEq, exists_eq_right_right, hamounts, hbounds]
  exact ⟨fun h => ⟨h.1, h.2⟩, fun h => ⟨h.amounts, h.bounds⟩⟩

/-! ## Players -/

/-- **A player is read back as it was written**, with everything it owns, everything that is active
    and everything that is counted, exactly if it has only numbers, counts and records that can be
    written, and nothing empty among its skips. -/
theorem Player.read_back_iff_storable (player : Player α) :
    Player.ofDocument? (.ofJson player.toJson) = some player ↔ player.Storable := by
  obtain ⟨id, name, resources, lands, buildings, passives, skips, tiers, landCounter⟩ := player
  have hslots : slots? [["id"], ["name"], ["resources"], ["lands"], ["buildings"], ["passives"],
        ["skips"], ["tiers"], ["landCounter"]]
      (.ofJson (Player.mk id name resources lands buildings passives skips tiers
        landCounter).toJson)
      = some [some (.text id), some (.text name), some (.ofJson resources.toJson),
          some (.ofJson (Json.listOf Land.toJson lands)), some (.ofJson (.texts buildings.toList)),
          some (.ofJson (Json.listOf ActivePassive.toJson passives)), some (.ofJson skips.toJson),
          some (.ofJson (Json.ofEntries .text tiers.toList)),
          some (.ofJson (.count landCounter))] := rfl
  have hresources : Returns Ledger.ofDocument? Ledger.toJson resources ↔ _ := Ledger.returns_iff
  have hlands : Returns (α := α) (list? Land.ofDocument?) (Json.listOf Land.toJson) lands ↔ _ :=
    returns_listOf_iff
  have hbuildings := Skips.returns_names (α := α) buildings
  have hpassives : Returns (list? ActivePassive.ofDocument?) (Json.listOf ActivePassive.toJson)
      passives ↔ _ := returns_listOf_iff
  have hskips : Returns (α := α) Skips.ofDocument? Skips.toJson skips ↔ _ :=
    Skips.returns_iff_pruned
  have htiers : Returns (α := α) (table? text?)
      (fun table => Json.ofEntries .text table.toList) tiers :=
    returns_ofEntries_iff.2 fun _ tier _ => returns_text tier
  have hcounter := returns_count_iff (α := α) (n := landCounter)
  simp only [Land.returns_iff] at hlands
  simp only [ActivePassive.returns_iff] at hpassives
  unfold Returns at hresources hlands hbuildings hpassives hskips htiers hcounter
  unfold Player.ofDocument?
  rw [hslots]
  simp only [required, defaulted, text?, hbuildings, htiers, Option.bind_eq_bind,
    Option.bind_some, Option.bind_eq_some_iff, Option.pure_def, Option.some.injEq,
    Player.mk.injEq, true_and, ← and_assoc, exists_eq_right, hresources, hlands, hpassives,
    hskips, hcounter]
  constructor
  · intro h
    obtain ⟨⟨⟨⟨hresources, hlands⟩, hpassives⟩, hskips⟩, hcounter⟩ := h
    exact ⟨hresources, hlands, hpassives, hskips, hcounter⟩
  · intro h
    exact ⟨⟨⟨⟨h.resources, h.lands⟩, h.passives⟩, h.skips⟩, h.landCounter⟩

end Realm

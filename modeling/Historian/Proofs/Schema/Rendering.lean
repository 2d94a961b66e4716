import Historian.Proofs.Catalog.Integrity
import Historian.Proofs.Program.Faults
import Historian.Proofs.Schema.Retyping
import Historian.Proofs.Stream.Tokens

namespace Historian

open Engine World Schema Catalog

-- Names that are put together from names.

namespace Identifier

theorem Valid.part {s : String} (h : Valid limit s) : ∀ d ∈ s.toList, isPart d := by
  obtain ⟨c, cs, hs, start, part, -⟩ := h
  rw [hs]
  refine List.forall_mem_cons.mpr ⟨?_, part⟩
  simp only [isStart, isPart, Char.isAlphanum, Bool.or_eq_true] at start ⊢
  exact start.imp_left .inl

theorem Valid.short {s : String} (h : Valid limit s) : s.toList.length ≤ limit := by
  obtain ⟨_, _, -, -, -, short⟩ := h
  exact short

theorem valid_of_parts {s : String} {parts : List (List Char)} (hs : s.toList = c :: parts.flatten)
    (start : isStart c) (part : ∀ p ∈ parts, ∀ d ∈ p, isPart d)
    (short : (parts.map List.length).sum < limit) : Valid limit s := by
  refine ⟨c, _, hs, start, fun d hd => ?_, ?_⟩
  · obtain ⟨p, hp, hd⟩ := List.mem_flatten.mp hd
    exact part p hp d hd
  · rw [hs, List.length_cons, List.length_flatten]
    exact short

-- A generation that fits into 64 bits has at most 19 digits.
theorem generation_digits {n : Int} (positive : 1 ≤ n) (bounded : n < 2 ^ 63) :
    (∀ d ∈ (toString n).toList, isPart d) ∧ (toString n).toList.length ≤ 19 := by
  obtain ⟨m, rfl⟩ := Int.eq_ofNat_of_zero_le (Int.le_trans (by decide) positive)
  have small : m < 10 ^ 19 := by omega
  have written : (toString (m : Int)).toList = Nat.toDigits 10 m := by
    simp [Int.toString_eq_repr, Int.repr]
  rw [written]
  constructor
  · intro d hd
    simp [isPart, Char.isAlphanum, Json.isDigit_toDigits m d hd]
  · have short := Nat.repr_length m 19 (by decide) small
    rwa [← String.length_toList, Nat.toList_repr] at short

end Identifier

namespace CompiledStream

variable {category feature : String} {n : Int}

-- What belongs to a feature is called after it and its category.
theorem called_valid {s : String} (front back : List Char)
    (hs : s.toList = 'f' :: [front, category.toList, ['_'], feature.toList, back].flatten)
    (hc : Identifier.Valid Identifier.codeLimit category)
    (hf : Identifier.Valid Identifier.codeLimit feature)
    (part : ∀ d ∈ front ++ back, Identifier.isPart d) (short : (front ++ back).length ≤ 60) :
    Identifier.Valid Identifier.tableLimit s := by
  refine Identifier.valid_of_parts hs (by decide) ?_ ?_
  · obtain ⟨before, behind⟩ := List.forall_mem_append.mp part
    simp only [List.forall_mem_cons, List.not_mem_nil, false_implies, implies_true, and_true]
    exact ⟨before, hc.part, by decide, hf.part, behind⟩
  · have categoryFits : category.toList.length ≤ 64 := hc.short
    have featureFits : feature.toList.length ≤ 64 := hf.short
    rw [List.length_append] at short
    simp only [List.map_cons, List.sum_cons, List.length_cons, List.length_nil, List.map_nil,
      List.sum_nil, Identifier.tableLimit]
    omega

theorem nameOf_valid (hc : Identifier.Valid Identifier.codeLimit category)
    (hf : Identifier.Valid Identifier.codeLimit feature) (positive : 1 ≤ n)
    (bounded : n < 2 ^ 63) :
    Identifier.Valid Identifier.tableLimit (nameOf category feature n) := by
  obtain ⟨digits, few⟩ := Identifier.generation_digits positive bounded
  refine called_valid ['s', '_'] (['_', 'g'] ++ (toString n).toList) ?_ hc hf ?_ ?_
  · simp [nameOf, toString_text]
  · rw [← List.append_assoc]
    exact List.forall_mem_append.mpr ⟨List.all_eq_true.mp rfl, digits⟩
  · simp only [List.length_append, List.length_cons, List.length_nil]
    omega

theorem targetOf_valid (hc : Identifier.Valid Identifier.codeLimit category)
    (hf : Identifier.Valid Identifier.codeLimit feature) :
    Identifier.Valid Identifier.tableLimit (targetOf category feature) := by
  refine called_valid ['e', 'a', 't', '_'] [] ?_ hc hf (List.all_eq_true.mp rfl) (by decide)
  simp [targetOf, toString_text]

-- A document that was read compiles for every category whose names are in order.
theorem ofFeature_of_read {k : CategoryKey} {config : FeatureConfig} (hk : k.Valid)
    (read : FeatureConfig.read document = .ok config) (positive : 1 ≤ n) (bounded : n < 2 ^ 63) :
    ∃ s, ofFeature k config n = .ok s := by
  have reads := FeatureConfig.read_eq_ok.mp read
  have name := requireIdentifier_ok.mp reads.nameFits
  have source : Identifier.Valid Identifier.tableLimit
      (config.sourceTable.getD k.superTableName) := by
    have fits := reads.tableFits
    cases given : config.sourceTable with
    | none => exact hk.superTable
    | some table =>
      rw [given] at fits
      exact requireTableName_ok.mp fits
  exact ⟨_, ofFeature_eq_ok.mpr ⟨positive, nameOf_valid hk.code name positive bounded,
    targetOf_valid hk.code name, source, rfl⟩⟩

end CompiledStream

theorem CategorySpec.valid {spec : CategorySpec} (h : spec.check = .ok ()) :
    spec.toCategoryKey.Valid := by
  simp only [CategorySpec.check, bind_unit_eq_ok] at h
  exact CategoryKey.check_ok.mp h.1

namespace Catalog

variable {c c' : Catalog}

-- A catalog all of whose names can stand in statements.
structure Renderable (c : Catalog) : Prop where
  keys : ∀ k ∈ c.keys, k.Valid
  codes : ∀ s ∈ c.signals, requireSignalCode s.code = .ok ()

theorem addSignal_codes (h : c.addSignal spec = .ok (a, c')) (hs : s ∈ c'.signals) :
    s ∈ c.signals ∨ requireSignalCode s.code = .ok () := by
  simp only [addSignal, SignalSpec.check, bind_eq_ok, mapError_eq_ok] at h
  obtain ⟨_, ⟨_, code, -⟩, _, -, h⟩ := h
  split at h <;> cases h
  rcases List.mem_append.mp hs with old | new
  · exact .inl old
  · exact .inr (List.mem_singleton.mp new ▸ code)

theorem updateSignal_codes (h : c.updateSignal spec = .ok (a, c')) (hs : s ∈ c'.signals) :
    s ∈ c.signals ∨ requireSignalCode s.code = .ok () := by
  simp only [updateSignal, SignalSpec.check, bind_eq_ok, mapError_eq_ok] at h
  obtain ⟨_, ⟨_, code, -⟩, _, -, h⟩ := h
  split at h
  case h_1 => cases h
  split at h <;> cases h
  obtain ⟨old, hold, rfl⟩ := List.mem_map.mp hs
  split
  case isTrue => exact .inr code
  case isFalse => exact .inl hold

theorem removeSignal_codes (h : c.removeSignal category code = .ok (a, c')) (hs : s ∈ c'.signals) :
    s ∈ c.signals := by
  unfold removeSignal at h
  split at h <;> cases h
  exact (List.mem_filter.mp hs).1

-- A signal is checked when it is made and when it is changed, and no other operation makes any.
theorem perform_codes {op : CatalogOp} {a : op.Answer} (h : op.perform c = .ok (a, c'))
    (hs : s ∈ c'.signals) : s ∈ c.signals ∨ requireSignalCode s.code = .ok () := by
  by_cases hop : op.OnSignals
  case neg => exact .inl ((CatalogOp.perform_spares h).signals hop ▸ hs)
  cases op with
  | addSignal => exact addSignal_codes h hs
  | updateSignal => exact updateSignal_codes h hs
  | removeSignal => exact .inl (removeSignal_codes h hs)
  | deleteCategory =>
    obtain ⟨_, rfl⟩ := deleteCategory_ok h
    exact .inl (List.mem_filter.mp hs).1
  | _ => exact hop.elim

namespace Renderable

theorem perform {op : CatalogOp} {a : op.Answer} (hc : c.Renderable)
    (h : op.perform c = .ok (a, c')) : c'.Renderable := by
  constructor
  · intro k hk
    cases (perform_effect h).keys with
    | same keys => exact hc.keys k (keys ▸ hk)
    | added checked _ keys =>
      rcases List.mem_append.mp (keys ▸ hk) with old | new
      · exact hc.keys k old
      · exact List.mem_singleton.mp new ▸ CategorySpec.valid checked
    | removed keys => exact hc.keys k (List.mem_filter.mp (keys ▸ hk)).1
  · intro s hs
    exact (perform_codes h hs).elim (hc.codes s) id

theorem carryOut (hc : c.Renderable) (op : CatalogOp) : (op.carryOut c).2.Renderable := by
  rcases op.carryOut_cases c with ⟨_, -, hr⟩ | ⟨_, c', ho, ⟨-, hr⟩ | ⟨_, -, hr⟩⟩ <;> rw [hr]
  · exact hc
  · exact hc.perform ho
  · exact hc.perform ho

theorem foldl (hc : c.Renderable) (ops : List CatalogOp) :
    (ops.foldl (fun c op => (op.carryOut c).2) c).Renderable := by
  induction ops generalizing c with
  | nil => exact hc
  | cons op ops ih => exact ih (hc.carryOut op)

end Renderable

end Catalog

-- An error that finds no fault with a name.
def SyncError.SparesNames (e : SyncError) : Prop := ∀ fault, e ≠ .invalid fault

namespace Synchronizer

variable {w : World Service} {policy : RetryPolicy} {k : CategoryKey} {signals : List SignalSpec}
  {r : SyncReport}

-- An action that refuses no name.
def Accepts (a : Action α) (w : World Service) : Prop :=
  Ensures a w (fun _ _ => True) fun e _ => e.SparesNames

theorem mapError_accepts {p : Program (Except τ α)} {g : τ → SyncError}
    (h : ∀ f, (g f).SparesNames) : Accepts (ExceptT.mk do return (← p).mapError g) w :=
  .mapError (Ensures.always (a := ExceptT.mk p) (fun _ _ => trivial) fun f _ => h f)

theorem sparesNames_ofEngine (category operation : String) (f : RetryFailure EngineError) :
    (SyncError.ofEngine category operation f).SparesNames := by
  unfold SyncError.ofEngine
  split <;> exact nofun

theorem catalog_accepts {op : CatalogOp} : Accepts (catalog policy op) w := by
  refine mapError_accepts fun f => ?_
  unfold SyncError.ofCatalog
  split <;> exact nofun

theorem describe_accepts {category : String} {table : TableName} :
    Accepts (describe policy category table) w :=
  mapError_accepts fun f => sparesNames_ofEngine category "describe" f

theorem checked_accepts {x : Except Invalid α} (h : ∃ a, x = .ok a) :
    Ensures (checked x) w (fun a w' => x = .ok a ∧ w' = w) fun e _ => e.SparesNames := by
  obtain ⟨a, rfl⟩ := h
  exact checked_ensures.mono (fun _ _ h => h) fun _ _ h => absurd rfl (h.2 a)

theorem mustExecute_accepts {category operation sql : String} :
    Accepts (mustExecute policy category operation sql) w := by
  refine execute_ensures.step (fun x w' _ => ?_) fun _ _ h => h.elim
  cases x with
  | ok => exact .pure trivial
  | error f => exact .throw (sparesNames_ofEngine category operation f)

theorem issue_accepts {statement : α → Except Invalid String} {as : List α}
    (h : ∀ a ∈ as, ∃ text, statement a = .ok text) :
    Accepts (issue policy category operation name statement note as r) w := by
  induction as generalizing r w with
  | nil => exact .pure trivial
  | cons a as ih =>
    obtain ⟨first, rest⟩ := List.forall_mem_cons.mp h
    refine (checked_accepts first).step (fun text w₁ _ => ?_) fun _ _ h => h
    refine execute_ensures.step (fun x w₂ _ => ?_) fun _ _ h => h.elim
    cases x with
    | ok => exact ih rest
    | error f => exact .guard (fun _ => sparesNames_ofEngine category operation f) fun _ => ih rest

-- Signals whose codes can stand in statements.
def Coded (signals : List SignalSpec) : Prop := ∀ s ∈ signals, requireSignalCode s.code = .ok ()

theorem Coded.column (h : Coded signals) (hc : c ∈ signalColumns signals) :
    requireSignalCode c.name = .ok () := by
  obtain ⟨s, hs, rfl⟩ := List.mem_map.mp hc
  exact h s (List.mem_filter.mp (List.mem_mergeSort.mp hs)).1

theorem addColumnStatement_made (hk : k.Valid) (hc : requireSignalCode c.name = .ok ()) :
    ∃ text, addColumnStatement k c = .ok text := by
  simp [addColumnStatement, bind_unit_eq_ok, CategoryKey.check_ok, hk, hc]

theorem modifyColumnStatement_made (hk : k.Valid) (hc : requireSignalCode c.name = .ok ()) :
    ∃ text, modifyColumnStatement k c = .ok text := by
  simp [modifyColumnStatement, bind_unit_eq_ok, CategoryKey.check_ok, hk, hc]

theorem superTableStatement_made (hk : k.Valid) (hs : Coded signals) :
    ∃ text, superTableStatement k signals = .ok text :=
  ⟨_, superTableStatement_ok.mpr
    ⟨hk, fun s hm => hs s (List.mem_filter.mp (List.mem_mergeSort.mp hm)).1, rfl⟩⟩

theorem create_accepts {text : String} (hk : k.Valid) :
    Accepts (create policy k signals text r) w := by
  have database : ∃ text, databaseStatement k.database = .ok text := by
    simp [databaseStatement, bind_unit_eq_ok, requireIdentifier_ok, hk.database]
  refine (checked_accepts database).step (fun _ _ _ => ?_) fun _ _ h => h
  refine mustExecute_accepts.step (fun _ _ _ => ?_) fun _ _ h => h
  exact mustExecute_accepts.step (fun _ _ _ => .pure trivial) fun _ _ h => h

theorem alter_accepts {S : TableSchema} (hk : k.Valid) (hs : Coded signals) :
    Accepts (alter policy k (diff S signals) r) w := by
  unfold alter
  simp only [addColumns_eq, widenColumns_eq]
  refine (issue_accepts fun c hc => ?_).step (fun _ _ _ => ?_) fun _ _ h => h
  · exact addColumnStatement_made hk (hs.column (mem_missing.mp hc).1)
  refine (issue_accepts fun x hx => ?_).step (fun _ _ _ => .pure trivial) fun _ _ h => h
  exact modifyColumnStatement_made hk (hs.column (mem_widenings.mp hx).1)

theorem loadCategory_accepts {code : String} : Accepts (loadCategory policy code) w := by
  refine catalog_accepts.step (fun found w' _ => ?_) fun _ _ h => h
  cases found with
  | none => exact .throw nofun
  | some k => exact .pure trivial

theorem listed_coded {c : Catalog} (hc : c.Renderable) (code : String) :
    Coded ((c.listSignals code).map (·.toSignalSpec)) := by
  intro s hs
  obtain ⟨row, hr, rfl⟩ := List.mem_map.mp hs
  exact hc.codes row (List.mem_filter.mp (List.mem_mergeSort.mp hr)).1

theorem syncLocked_accepts {code : String} {inspect : Bool} (hc : w.catalog.Renderable) :
    Accepts (syncLocked policy code inspect) w := by
  refine (loadCategory_ensures.and loadCategory_accepts).step (fun k w₁ ⟨⟨hk, h₁⟩, _⟩ => ?_)
    fun _ _ h => h.2
  have valid : k.toCategoryKey.Valid := hc.keys _ (Catalog.keys_of_getCategory hk).1
  refine .guard (fun _ => nofun) fun _ => ?_
  refine ((read_ensures rfl).and catalog_accepts).step (fun listed w₂ ⟨⟨hs, _⟩, _⟩ => ?_)
    fun _ _ h => h.2
  have coded : Coded (listed.map (·.toSignalSpec)) := by
    rw [hs, h₁.catalog]
    exact listed_coded hc code
  refine (checked_accepts (superTableStatement_made valid coded)).step (fun text w₃ _ => ?_)
    fun _ _ h => h
  dsimp only
  split
  case isTrue => exact .pure trivial
  case isFalse =>
    have recorded (r : SyncReport) (w : World Service) : Accepts (do
        if r.rejected.isEmpty then
          catalog policy (.recordCategorySync code (fingerprint text) (← Program.now))
        return r) w := by
      dsimp only
      split
      · exact .lift (catalog_accepts.step (fun _ _ _ => .pure trivial) fun _ _ h => h)
      · exact .pure trivial
    refine describe_accepts.step (fun found w₄ _ => ?_) fun _ _ h => h
    cases found with
    | none => exact (create_accepts valid).step (fun r w _ => recorded r w) fun _ _ h => h
    | some S => exact (alter_accepts valid coded).step (fun r w _ => recorded r w) fun _ _ h => h

theorem call_accepts {code : String} {inspect : Bool} (hc : w.catalog.Renderable) :
    Accepts (if inspect then resync policy code else sync policy code) w := by
  have locked (inspect : Bool) (w₁ : World Service) (hu : w.Untouched w₁) :
      Ensures (syncLocked policy code inspect) w₁ (fun _ w₂ => ∀ w₃, w₂.Untouched w₃ → True)
        fun e w₂ => ∀ w₃, w₂.Untouched w₃ → e.SparesNames :=
    (syncLocked_accepts (hu.catalog ▸ hc)).mono (fun _ _ _ _ _ => trivial) fun _ _ h _ _ => h
  cases inspect with
  | false => exact .holding fun w₁ h₁ => locked false w₁ h₁
  | true => exact .holding fun w₁ h₁ => locked true w₁ h₁

-- What the catalog lets in can be written down: whatever was done to it, every category has its
-- statements, and so has every feature in every generation; synchronizing refuses no name.
theorem renderable_after (ops : List CatalogOp) :
    (∀ k ∈ (after ops).categories,
      (∃ text, superTableStatement k.toCategoryKey
        (((after ops).listSignals k.code).map (·.toSignalSpec)) = .ok text) ∧
      (∀ s ∈ (after ops).signals,
        (∃ text, addColumnStatement k.toCategoryKey (signalColumn s.toSignalSpec) = .ok text) ∧
        ∃ text, modifyColumnStatement k.toCategoryKey (signalColumn s.toSignalSpec) = .ok text) ∧
      ∀ document config (n : Int), FeatureConfig.read document = .ok config → 1 ≤ n →
        n < 2 ^ 63 → ∃ s, CompiledStream.ofFeature k.toCategoryKey config n = .ok s) ∧
    ∀ (w : World Service) policy code (inspect : Bool) fault, w.catalog = after ops →
      ((if inspect then resync policy code else sync policy code).run.run w).1 ≠
        .error (.invalid fault) := by
  have renderable : (after ops).Renderable := .foldl ⟨by simp [keys], by simp⟩ ops
  refine ⟨fun k hk => ?_, fun w policy code inspect fault hc failed => ?_⟩
  · have valid : k.toCategoryKey.Valid := renderable.keys _ (List.mem_map_of_mem hk)
    refine ⟨superTableStatement_made valid (listed_coded renderable k.code), fun s hs => ?_,
      fun document config n read positive bounded => ?_⟩
    · have coded := renderable.codes s hs
      exact ⟨addColumnStatement_made valid coded, modifyColumnStatement_made valid coded⟩
    · exact CompiledStream.ofFeature_of_read valid read positive bounded
  · have accepts : Accepts (if inspect then resync policy code else sync policy code) w :=
      call_accepts (hc ▸ renderable)
    exact accepts.of_error (Prod.ext failed rfl) fault rfl

def furnished : List CatalogOp :=
  [.createCategory { code := "motor", database := "plant", name := "Motor" },
    .addSignal (.stored "motor" "temp" .numeric)]

theorem run_furnished :
    (after furnished).signals.map (fun s => (s.category, s.code)) = [("motor", "temp")] := by
  cbv

-- Even in the last generation.
theorem renderable_after_furnished :
    ∃ k ∈ (after furnished).categories, k.code = "motor" ∧
      (∃ s ∈ (after furnished).signals, s.code = "temp" ∧
        ∃ text, addColumnStatement k.toCategoryKey (signalColumn s.toSignalSpec) = .ok text) ∧
      (∃ s, CompiledStream.ofFeature k.toCategoryKey FeatureConfig.settled (2 ^ 63 - 1) = .ok s) ∧
      ∀ fault, ((sync {} "motor").run.run
        { engine := ({} : Service), catalog := after furnished }).1 ≠ .error (.invalid fault) := by
  obtain ⟨s, hs, named⟩ : ∃ s ∈ (after furnished).signals,
      (s.category, s.code) = ("motor", "temp") :=
    List.mem_map.mp (run_furnished ▸ List.mem_singleton_self _)
  obtain ⟨category, name⟩ := Prod.mk.inj named
  obtain ⟨k, hk, code⟩ := (integral_empty.foldl furnished).signalsOwned s hs
  obtain ⟨rendered, accepted⟩ := renderable_after furnished
  obtain ⟨-, columns, compiled⟩ := rendered k hk
  exact ⟨k, hk, code.trans category, ⟨s, hs, name, (columns s hs).1⟩,
    compiled _ _ _ FeatureConfig.read_spelled (by decide) (by decide),
    fun fault => accepted _ {} "motor" false fault rfl⟩

end Synchronizer

end Historian

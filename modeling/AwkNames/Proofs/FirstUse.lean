import AwkNames.Proofs.Deferral

/-!
# A name keeps the kind of its first use

A name whose first use is an array use is entered as an array that waits on nothing, and one
whose first use is a scalar use as a scalar that waits on nothing, first used at that node.
No operation changes such an entry but for its slot, unless it opens the body that owns the
table, which empties it, or passes the node of the first scalar use to a call, which makes the
name wait on a parameter:

* `SymbolTable.Holds t o x s` : the entry of `x` in the table of `o` is `s` up to its slot;
* `Builder.Performs.holds` : one operation keeps an entry with a known kind that waits on
  nothing (the step lemma), and `Builder.Runs.holds` a run of them (the run lemma);
* `Builder.runs_firstUse_kind` : a name has the kind of its first use in every later state,
  resolutions included, and after a successful resolution an array that is a global and not
  special sits in the program's array table, while a declared function takes an array
  parameter by reference.
-/

namespace AwkNames

namespace Op

/-- The operation opens the body of the function that owns the table of `o`, which empties
the table. -/
def Reopens (o : Option String) : Op → Prop
  | .openFunction f _ _ => o = some f
  | _ => False

/-- The operation is a call that passes node `n` as an argument. -/
def Passes (n : NodeId) : Op → Prop
  | .call _ args _ => n ∈ args
  | _ => False

/-- The operation spares the entry `s` of the table of `o`: it does not empty the table, and
does not pass the node where `s` was first used as a scalar. -/
def Spares (o : Option String) (s : Symbol) (op : Op) : Prop :=
  ¬ op.Reopens o ∧ ∀ n, s.firstUse = some n → ¬ op.Passes n

/-- No operation empties the global table. -/
theorem not_reopens_none (op : Op) : ¬ op.Reopens none := by
  cases op <;> simp [Reopens]

end Op

/-! ### Entries up to their slot -/

namespace SymbolTable

/-- The entry of `x` in the table of `o` is `s`, up to its slot. -/
def Holds (t : SymbolTable) (o : Option String) (x : String) (s : Symbol) : Prop :=
  ∃ slot, t.get? o x = some { s with slot }

variable {t : SymbolTable} {o : Option String} {x : String} {s : Symbol}

theorem Holds.kind (h : t.Holds o x s) : t.kind o x = s.kind := by
  obtain ⟨slot, h⟩ := h
  rw [kind_of_get? h]

/-- Entering a name only when its kind is unknown keeps an entry whose kind is known. -/
theorem Holds.ite_insert (h : t.Holds o x s) (hk : s.kind ≠ .unknown) (o' : Option String)
    (x' : String) (s' : Symbol) :
    (if t.kind o' x' = .unknown then t.insert o' x' s' else t).Holds o x s := by
  split
  · rename_i hu
    obtain ⟨slot, hs⟩ := h
    refine ⟨slot, ?_⟩
    rw [get?_insert, if_neg]
    · exact hs
    · rintro ⟨rfl, rfl⟩
      rw [kind_of_get? hs] at hu
      exact hk hu
  · exact h

end SymbolTable

/-- Inference changes only kinds that were unknown. -/
theorem Resolver.Settles.holds {r₀ r : Resolver} {p : Program} {o : Option String} {x : String}
    {s : Symbol} (hset : r₀.Settles r p) (h : r₀.symbols.Holds o x s) (hk : s.kind ≠ .unknown) :
    r.symbols.Holds o x s := by
  obtain ⟨κ, rfl, hκ⟩ := hset
  obtain ⟨slot, hs⟩ := h
  have hkind : κ o x = s.kind := by
    rcases hκ o x _ hs with heq | ⟨hp, -⟩
    · exact heq
    · exact absurd ((Symbol.isPending_iff _).1 hp).1 hk
  refine ⟨slot, ?_⟩
  rw [Resolver.get?_withKinds, hs, hkind]
  rfl

/-! ### One operation -/

namespace Builder

variable {b : Builder} {o : Option String} {x : String} {s : Symbol}

theorem holds_varRef (h : b.resolver.symbols.Holds o x s) (hk : s.kind ≠ .unknown) (n : String) :
    (b.varRef n).2.resolver.symbols.Holds o x s :=
  h.ite_insert hk _ _ _

theorem holds_arrayRef (h : b.resolver.symbols.Holds o x s) (hk : s.kind ≠ .unknown)
    (n : String) : (b.arrayRef n).2.resolver.symbols.Holds o x s :=
  h.ite_insert hk _ _ _

/-- Deferring an argument touches only the name first used at that node. -/
theorem holds_deferArg (h : b.resolver.symbols.Holds o x s) {a : NodeId}
    (ha : s.firstUse ≠ some a) (f : String) (i : Nat) :
    (b.deferArg f a i).resolver.symbols.Holds o x s := by
  obtain ⟨slot, hs⟩ := h
  unfold deferArg
  split
  · rename_i u _
    split
    · rename_i s' hs'
      split
      · rename_i hfirst
        refine ⟨slot, ?_⟩
        rw [SymbolTable.get?_insert, if_neg]
        · exact hs
        · rintro ⟨rfl, rfl⟩
          rw [hs] at hs'
          cases hs'
          exact ha hfirst
      · exact ⟨slot, hs⟩
    · exact ⟨slot, hs⟩
  · exact ⟨slot, hs⟩

theorem holds_deferArgs (f : String) :
    ∀ (b : Builder) (i : Nat) (args : List NodeId), b.resolver.symbols.Holds o x s →
      (∀ a ∈ args, s.firstUse ≠ some a) → (b.deferArgs f i args).resolver.symbols.Holds o x s
  | _, _, [], h, _ => h
  | b, i, a :: rest, h, ha =>
    holds_deferArgs f (b.deferArg f a i) (i + 1) rest
      (holds_deferArg h (ha a List.mem_cons_self) f i)
      fun a' ha' => ha a' (List.mem_cons_of_mem _ ha')

theorem holds_call (h : b.resolver.symbols.Holds o x s) {args : List NodeId}
    (ha : ∀ a ∈ args, s.firstUse ≠ some a) (f : String) (pos : Position) :
    (b.call f args pos).2.resolver.symbols.Holds o x s := by
  rw [call_symbols]
  exact holds_deferArgs f b 0 args h ha

theorem holds_openFunction (h : b.resolver.symbols.Holds o x s) {f : String} (hf : o ≠ some f)
    (ps : List String) : (b.openFunction f ps).resolver.symbols.Holds o x s := by
  obtain ⟨slot, hs⟩ := h
  refine ⟨slot, ?_⟩
  change (b.resolver.symbols.addFunction f).get? o x = _
  rw [SymbolTable.get?_addFunction, if_neg hf, hs]

/-! ### Resolution -/

/-- The global phase gives a global with a known kind its slot and nothing else. -/
theorem settled_with_slot (special : String → Nat) (acc : GlobalSlots) (n : String)
    (hk : s.kind ≠ .unknown) (slot : Nat) :
    ∃ slot', GlobalSlots.settled special acc n { s with slot } = { s with slot := slot' } := by
  unfold GlobalSlots.settled
  split
  · exact ⟨_, rfl⟩
  · split
    · exact ⟨_, rfl⟩
    · rename_i ha
      have hs : s.kind = .scalar := by
        cases hk' : s.kind with
        | unknown => exact absurd hk' hk
        | scalar => rfl
        | array => exact absurd hk' ha
      exact ⟨_, by rw [← hs]⟩

theorem holds_assignGlobalSlotsIn {l : List String}
    (hl : l.Perm b.resolver.symbols.globals.keys) (h : b.resolver.symbols.Holds o x s)
    (hk : s.kind ≠ .unknown) : (b.assignGlobalSlotsIn l).resolver.symbols.Holds o x s := by
  obtain ⟨slot, hx⟩ := h
  cases o with
  | none =>
    obtain ⟨slot', hslot'⟩ := settled_with_slot b.resolver.config.specialSlot
      (b.assignGlobalSlotsIn l).globalSlots x hk slot
    refine ⟨slot', ?_⟩
    have hx' : b.resolver.symbols.globals.get? x = some { s with slot } := hx
    rw [SymbolTable.get?, assignGlobalSlotsIn_globals hl, NameMap.get?_mapValues, hx',
      Option.map_some, hslot']
  | some f =>
    rw [assignGlobalSlotsIn_eq]
    exact ⟨slot, hx⟩

/-- Numbering the parameters keeps a parameter's entry with a known kind but for its slot, and
leaves every other entry alone. -/
theorem Wf.assignLocalSlots_holds (hb : b.Wf) (h : b.resolver.symbols.Holds o x s)
    (hk : s.kind ≠ .unknown) : b.assignLocalSlots.resolver.symbols.Holds o x s := by
  obtain ⟨slot, hx⟩ := h
  by_cases hpar : ∃ f k fn, o = some f ∧ b.resolver.functions.get? f = some k ∧
      b.program.functions[k]? = some fn ∧ x ∈ fn.params
  · obtain ⟨f, k, fn, rfl, hf, hfn, hmem⟩ := hpar
    obtain ⟨slot', hslot'⟩ := hb.assignLocalSlots_get?_of_param hf hfn hmem
    refine ⟨slot', ?_⟩
    rw [hslot', paramSymbol_scopes, hx, SymbolTable.kind_of_get? hx]
    cases s with
    | mk kind firstUse scope slot₀ waitsOn => cases kind <;> simp_all
  · refine ⟨slot, ?_⟩
    rw [hb.assignLocalSlots_get?_of_not_param fun f k fn ho hf hfn hmem =>
      hpar ⟨f, k, fn, ho, hf, hfn, hmem⟩, hx]

/-- **Resolution keeps an entry with a known kind but for its slot**, whether it succeeds or
fails: inference only settles names whose kind is unknown, and the slot phases give a scalar
or an array nothing but its slot. -/
theorem Wf.resolveIn_holds (hb : b.Wf) {v : VisitOrder} (hv : v.Lawful)
    (h : b.resolver.symbols.Holds o x s) (hk : s.kind ≠ .unknown) :
    (b.resolveIn v).2.resolver.symbols.Holds o x s := by
  rcases hres : b.resolveIn v with ⟨out, b'⟩
  cases out with
  | ok u =>
    obtain ⟨bs, r, -, hi, rfl⟩ := Builder.resolveIn_eq_ok hres
    have hset := hb.settles_inferIn hv bs
    rw [hi] at hset
    have h₃ := (hb.inferIn_of_eq hv hi).bindCalls
    have h₃h : ({ b with resolver := r } : Builder).bindCalls.resolver.symbols.Holds o x s := by
      rw [bindCalls_resolver]
      exact hset.holds h hk
    have h₄ := holds_assignGlobalSlotsIn (hv _).2 h₃h hk
    rw [patch_resolver]
    exact (h₃.assignGlobalSlotsIn (hv _).2).assignLocalSlots_holds h₄ hk
  | error e =>
    rcases Builder.resolveIn_eq_error hres with ⟨-, rfl⟩ | ⟨bs, -, hi, -⟩
    · exact h
    · have hset := hb.settles_inferIn hv bs
      rw [hi] at hset
      exact hset.holds h hk

/-! ### Runs -/

/-- **One operation keeps an entry with a known kind but for its slot**, unless it empties the
entry's table or passes the node of its first scalar use to a call. -/
theorem Performs.holds {b b' : Builder} {op : Op} (hp : b.Performs op b') (hb : b.Wf)
    (hop : op.Spares o s) (hk : s.kind ≠ .unknown) (h : b.resolver.symbols.Holds o x s) :
    b'.resolver.symbols.Holds o x s := by
  cases hp with
  | alloc _ | closeFunction | register _ _ | program _ => exact h
  | varRef name => exact holds_varRef h hk name
  | arrayRef name => exact holds_arrayRef h hk name
  | call callee args pos => exact holds_call h (fun a ha hfu => hop.2 a hfu ha) callee pos
  | openFunction _ => exact holds_openFunction h hop.1 _
  | resolve hv => exact hb.resolveIn_holds hv h hk

/-- **A run keeps such an entry** when every operation spares it. -/
theorem Runs.holds {ok : Op → Prop} (hok : ∀ op, ok op → op.Spares o s) (hk : s.kind ≠ .unknown)
    {b b' : Builder} (hr : b.Runs ok b') (hb : b.Wf) (h : b.resolver.symbols.Holds o x s) :
    b'.resolver.symbols.Holds o x s :=
  hr.invariant_of_wf (fun hop hp hb h => hp.holds hb (hok _ hop) hk h) hb h

/-! ### First uses -/

/-- A first array use enters the name as an array that was never used as a scalar. -/
theorem holds_arrayRef_first
    (hnew : b.resolver.symbols.get? (b.resolver.scopeOf x).owner x = none) :
    (b.arrayRef x).2.resolver.symbols.Holds (b.resolver.scopeOf x).owner x
      { kind := .array, scope := b.resolver.scopeOf x } :=
  ⟨0, by simp [arrayRef, SymbolTable.kind_of_get?_none hnew, SymbolTable.get?_insert]⟩

/-- A first scalar use enters the name as a scalar first used at its node. -/
theorem holds_varRef_first
    (hnew : b.resolver.symbols.get? (b.resolver.scopeOf x).owner x = none) :
    (b.varRef x).2.resolver.symbols.Holds (b.resolver.scopeOf x).owner x
      { kind := .scalar, firstUse := some b.ast.nextId, scope := b.resolver.scopeOf x } :=
  ⟨0, by simp [varRef, SymbolTable.kind_of_get?_none hnew, SymbolTable.get?_insert]⟩

/-- `ARGV`, entered as an array before any request, is an array in every state that a run of
requests from a fresh builder reaches. -/
theorem stepsIn_argv_array (config : Config) {v : VisitOrder} (hv : v.Lawful) (ops : List Step) :
    ((Builder.new config).stepsIn v ops).2.resolver.symbols.kind none "ARGV" = .array := by
  let b₀ : Builder := { resolver := { config } }
  have hnone : (b₀.resolver.scopeOf "ARGV").owner = none := by simp [b₀]
  have hnew : b₀.resolver.symbols.get? (b₀.resolver.scopeOf "ARGV").owner "ARGV" = none := by
    rw [hnone]
    rfl
  have h₀ := holds_arrayRef_first hnew
  rw [hnone] at h₀
  -- no operation empties the global table, and `ARGV` was never used as a scalar
  have hspare : ∀ op : Op, True →
      op.Spares none { kind := .array, scope := b₀.resolver.scopeOf "ARGV" } :=
    fun op _ => ⟨op.not_reopens_none, fun n hn => by cases hn⟩
  have h := ((runs_stepsIn hv _ ops).mono hspare).holds (fun _ h => h) (by simp)
    ((wf_empty config).arrayRef "ARGV") h₀
  exact h.kind

/-- **A name keeps the kind of its first use.** When a name has no entry in the table its use
is looked up in, and its first use there is an array use, it is an array in every state that
operations reach without opening the body that owns the table, resolutions included, whether
they succeed or fail; after a successful resolution, a global that is not special sits in the
program's array table and not in its scalar table, and a declared function that owns the table
flags the parameter as taken by reference. When its first use is a scalar use, it is a scalar
in every state that operations reach without opening that body or passing the node of the use
to a call. -/
theorem runs_firstUse_kind :
    (∀ (b₀ b : Builder) (x : String), b₀.Wf →
      b₀.resolver.symbols.get? (b₀.resolver.scopeOf x).owner x = none →
      (b₀.arrayRef x).2.Runs (fun op => ¬ op.Reopens (b₀.resolver.scopeOf x).owner) b →
      b.resolver.symbols.kind (b₀.resolver.scopeOf x).owner x = .array ∧
      ∀ v b', v.Lawful → b.resolveIn v = (.ok (), b') →
        (b₀.resolver.scopeOf x = .global →
          (b'.program.arrays.get? x).isSome ∧ b'.program.scalars.get? x = none) ∧
        ∀ f k fn, (b₀.resolver.scopeOf x).owner = some f →
          b'.resolver.functions.get? f = some k → b'.program.functions[k]? = some fn →
            ∃ j : Nat, fn.params[j]? = some x ∧ fn.arrays[j]? = some true) ∧
    (∀ (b₀ b : Builder) (x : String), b₀.Wf →
      b₀.resolver.symbols.get? (b₀.resolver.scopeOf x).owner x = none →
      (b₀.varRef x).2.Runs
        (fun op => ¬ op.Reopens (b₀.resolver.scopeOf x).owner ∧ ¬ op.Passes b₀.ast.nextId) b →
      b.resolver.symbols.kind (b₀.resolver.scopeOf x).owner x = .scalar) := by
  refine ⟨fun b₀ b x hb₀ hnew hrun => ?array, fun b₀ b x hb₀ hnew hrun => ?scalar⟩
  case array =>
    -- an array entry was never used as a scalar, so only emptying its table can touch it
    have hb := hrun.wf (hb₀.arrayRef x)
    have h := hrun.holds (fun op hop => ⟨hop, fun n hn => by cases hn⟩) (by simp)
      (hb₀.arrayRef x) (holds_arrayRef_first hnew)
    refine ⟨h.kind, fun v b' hv hres => ?_⟩
    have h' := hb.resolveIn_holds hv h (by simp)
    have hb' := hb.resolveIn hv
    rw [hres] at h' hb'
    refine ⟨fun hg => ?global, fun f k fn ho hk hfn => ?param⟩
    case global =>
      rw [hg] at h'
      obtain ⟨slot, hx⟩ := h'
      rcases hb.resolveIn_global hv hres hx (by simp) with ⟨-, ha, hs⟩ | ⟨hkind, -⟩
      · exact ⟨by simp [ha], hs⟩
      · simp at hkind
    case param =>
      rw [ho] at h'
      obtain ⟨slot, hx⟩ := h'
      obtain ⟨-, -, hmem, -⟩ := hb'.param_symbol f x _ hx
      obtain ⟨j, hj, hjx⟩ := List.getElem_of_mem (hmem k fn hk hfn)
      refine ⟨j, by simp [hj, hjx], ?_⟩
      rw [hb.resolveIn_flags hv hres hk hfn hj, hjx, SymbolTable.kind_of_get? hx]
      rfl
  case scalar =>
    -- the scalar entry is touched only by emptying its table or passing its first use
    have hspare : ∀ op : Op,
        (¬ op.Reopens (b₀.resolver.scopeOf x).owner ∧ ¬ op.Passes b₀.ast.nextId) →
          op.Spares (b₀.resolver.scopeOf x).owner
            { kind := .scalar, firstUse := some b₀.ast.nextId, scope := b₀.resolver.scopeOf x } :=
      fun op hop => ⟨hop.1, fun n hn => by cases hn; exact hop.2⟩
    exact (hrun.holds hspare (by simp) (hb₀.varRef x) (holds_varRef_first hnew)).kind

/-- `ARGV`, entered as an array before anything else, is still one after a run that uses it as
a scalar and resolves; `x`, first used as a scalar, stays one after an array use. -/
theorem runs_firstUse_kind_argv :
    ((Builder.new {}).stepsIn .sorted
        [.begin [.expr (.var "ARGV")], .resolve]).2.resolver.symbols.kind none "ARGV" = .array ∧
      (((Builder.new {}).varRef "x").2.arrayRef "x").2.resolver.symbols.kind none "x" =
        .scalar :=
  ⟨(runs_firstUse_kind.1 _ _ "ARGV" (wf_empty {}) rfl
      ((runs_stepsIn VisitOrder.sorted_lawful _ _).mono fun op _ => op.not_reopens_none)).1,
    runs_firstUse_kind.2 _ _ "x" (wf_new {}) rfl
      (.single ⟨.arrayRef "x", ⟨nofun, nofun⟩, .arrayRef "x"⟩)⟩

end Builder

end AwkNames

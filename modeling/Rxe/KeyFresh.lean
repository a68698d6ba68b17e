/-
How soon a key comes again (`rxe_get_key` and `alloc_index` together).

The last byte of a key is there so that the key of a deregistered region stays dead for a while
when the pool index is used again.  A generator of period 255 would keep it dead during the next
254 registrations.  From its seed 1 the generator of the driver has the period 15, and the
allocator gives out again at once an index that has just been freed.

* `keyAt` — the byte of each registration, counted over the three kinds of regions;
* `KeySys`, `keyStep` — the regions, and the keys that registrations have returned;
* `KeysFresh` — no key is returned twice within 255 registrations, and a dead key finds nothing;
* `keys_fresh_iff` — the keys are fresh exactly if no region gets the index of one that was
  registered 15, 30, ..., 240 registrations before it.
-/
import Mathlib.Dynamics.PeriodicPts.Defs
import Rxe.RegionPool

namespace Rxe

open SearchTree

variable {x : Elem Region} {w w' : MemPool} {job : ℕ × RegCall}

/-! ### The generator -/

/-- What the `n`-th call of `rxe_get_key` returns. -/
def keyAt (n : ℕ) : ℕ := rxeGetKey^[n + 1] 1

theorem rxeGetKey_periodic : Function.IsPeriodicPt rxeGetKey 15 1 := by
  show rxeGetKey^[15] 1 = 1
  decide

theorem keyAt_mod (n : ℕ) : keyAt (n % 15) = keyAt n := by
  unfold keyAt
  rw [Function.iterate_succ_apply', Function.iterate_succ_apply',
    rxeGetKey_periodic.iterate_mod_apply]

/-- The generator has the period 15. -/
theorem keyAt_inj {m n : ℕ} : keyAt m = keyAt n ↔ m % 15 = n % 15 := by
  have hsmall : ∀ m < 15, ∀ n < 15, keyAt m = keyAt n → m = n := by decide
  constructor
  · intro h
    rw [← keyAt_mod m, ← keyAt_mod n] at h
    exact hsmall _ (Nat.mod_lt _ (by decide)) _ (Nat.mod_lt _ (by decide)) h
  · intro h
    rw [← keyAt_mod m, ← keyAt_mod n, h]

theorem memKey_byte {index key : ℕ} (hkey : key < 2 ^ 8) : memKey index key % 2 ^ 8 = key := by
  rw [memKey_eq hkey]
  omega

/-! ### The keys that were returned -/

/-- The regions, and the keys returned by registrations with the number of the registration;
every call of `rxe_mem_init` counts as a registration. -/
structure KeySys where
  mr : MrSys
  handed : List (ℕ × ℕ) := []

/-- What a step returns to the caller of a verb. -/
def handedBy (s : MrSys) : MrAct → List (ℕ × ℕ)
  | .finish w e => ((s.pool w).elem e).toList.filterMap fun x =>
      x.obj.job.map fun _ => (x.obj.draw, x.obj.lkey)
  | _ => []

def keyStep (s : KeySys) (a : MrAct) : Option KeySys :=
  (mrStep s.mr a).map fun mr => { mr, handed := s.handed ++ handedBy s.mr a }

/-- The region of the `n`-th registration is registered now. -/
def KeySys.Live (s : KeySys) (n : ℕ) : Prop :=
  ∃ w e x, (s.mr.pool w).elem e = some x ∧ x.obj.stage = .registered ∧ x.obj.draw = n

/-- No key returned by a registration is returned by one of the next 254; and as long as there
were no more than that, the key of a region that is not registered any more finds no region. -/
def KeysFresh (s : KeySys) : Prop :=
  (∀ m n k, (m, k) ∈ s.handed → (n, k) ∈ s.handed → m < n → m + 254 < n) ∧
    ∀ n k, (n, k) ∈ s.handed → ¬ s.Live n → s.mr.keys.length ≤ n + 255 →
      ∀ pd access type, (rxeLookupMem s.mr pd access k type).1 = none

/-- Where a registration returns, no key was returned for the same index a multiple of 15
registrations earlier, and less than 255. -/
def FreshOk (s : KeySys) (a : MrAct) : Prop :=
  ∀ n k, (n, k) ∈ handedBy s.mr a → ∀ m k', (m, k') ∈ s.handed →
    m < n → m % 15 = n % 15 → n ≤ m + 254 → k' >>> 8 ≠ k >>> 8

/-! ### What a step does to the keys -/

/-- Every region with keys in `p'` was in `p` with the same keys, at the same stage. -/
def KeysKept (p p' : Pool Region) : Prop :=
  ∀ e x', p'.elem e = some x' → x'.obj.stage.hasKey →
    ∃ x, p.elem e = some x ∧ x.index = x'.index ∧ x.obj.stage = x'.obj.stage ∧
      x.obj.draw = x'.obj.draw ∧ x.obj.lkey = x'.obj.lkey

section KeysKept

variable {p : Pool Region} {e : ℕ}

theorem KeysKept.refl (p : Pool Region) : KeysKept p p :=
  fun _ x hx _ => ⟨x, hx, rfl, rfl, rfl, rfl⟩

theorem KeysKept.setElem {f : Elem Region → Elem Region}
    (hf : ∀ x, p.elem e = some x → (f x).obj.stage.hasKey → x.index = (f x).index ∧
      x.obj.stage = (f x).obj.stage ∧ x.obj.draw = (f x).obj.draw ∧ x.obj.lkey = (f x).obj.lkey) :
    KeysKept p (p.setElem e f) := by
  intro e' y hy hkey
  rcases setElem_cases hy with ⟨rfl, x, hx, rfl⟩ | ⟨-, hx⟩
  · exact ⟨x, hx, hf x hx hkey⟩
  · exact ⟨y, hx, rfl, rfl, rfl, rfl⟩

theorem KeysKept.close {p' : Pool Region} {f : Elem Region → Elem Region}
    (helem : ∀ e', e' ≠ e → p'.elem e' = p.elem e') (hf : ∀ x, (f x).obj.stage.hasKey = false) :
    KeysKept p (p'.setElem e f) := by
  intro e' y hy hkey
  rcases setElem_cases hy with ⟨-, x, -, rfl⟩ | ⟨hne, hx⟩
  · rw [hf x] at hkey
    cases hkey
  · rw [helem e' hne] at hx
    exact ⟨y, hx, rfl, rfl, rfl, rfl⟩

theorem KeysKept.alloc {a : PoolAct Region} {p' : Pool Region} (ha : a.ofAlloc)
    (hstep : poolStep p a = some p') : KeysKept p p' := by
  intro e x hx hkey
  rcases elem_of_alloc ha hstep hx with hold | rfl
  · exact ⟨x, hold, rfl, rfl, rfl, rfl⟩
  · -- a new object has no key
    cases hkey

end KeysKept

/-- A step other than `rxe_mem_init` and the return of a registration leaves the keys alone. -/
structure MrKept (s s' : MrSys) : Prop where
  pools : ∀ w, KeysKept (s.pool w) (s'.pool w)
  key : s'.key = s.key
  keys : s'.keys = s.keys

section Steps

variable {s s' : MrSys} {w : MemPool} {p : Pool Region}

theorem MrKept.withPool (h : KeysKept (s.pool w) p) : MrKept s (s.withPool w p) := by
  refine ⟨fun w' => ?_, rfl, rfl⟩
  show KeysKept (s.pool w') (Function.update s.pool w p w')
  by_cases hw : w' = w
  · subst hw
    rw [Function.update_self]
    exact h
  · rw [Function.update_of_ne hw]
    exact .refl _

theorem rxeLookupMem_kept (h : MrInv s) (pd access key : ℕ) (type : LookupType) :
    MrKept s (rxeLookupMem s pd access key type).2 := by
  by_cases hkey : key = 0
  · subst hkey
    exact ⟨fun w => .refl _, rfl, rfl⟩
  · rcases h.lookup pd access type hkey with ⟨r, -, heq⟩ | ⟨-, heq⟩
    · rw [heq]
      exact .withPool (.setElem fun _ _ _ => ⟨rfl, rfl, rfl, rfl⟩)
    · rw [heq]
      exact ⟨fun w => .refl _, rfl, rfl⟩

theorem setObj_cases {e : ℕ} {f : Region → Region}
    (hx : (s.pool w).elem e = some x) {e' : ℕ} {y : Elem Region}
    (hy : ((s.withPool w ((s.pool w).setObj e f)).pool w').elem e' = some y) :
    y = { x with obj := f x.obj } ∨ (s.pool w').elem e' = some y ∧ ¬ (w' = w ∧ e' = e) := by
  have hy' : (Function.update s.pool w ((s.pool w).setObj e f) w').elem e' = some y := hy
  by_cases hw : w' = w
  · subst hw
    rw [Function.update_self] at hy'
    rcases setElem_cases hy' with ⟨rfl, z, hz, rfl⟩ | ⟨hne, hz⟩
    · cases hx.symm.trans hz
      exact Or.inl rfl
    · exact Or.inr ⟨hz, fun hno => hne hno.2⟩
  · rw [Function.update_of_ne hw] at hy'
    exact Or.inr ⟨hy', fun hno => hw hno.1⟩

/-- What the steps do to the keys. -/
inductive KeyMove (s : MrSys) : MrAct → MrSys → Prop
  | other {a s'} (hkept : MrKept s s') (hhanded : handedBy s a = []) : KeyMove s a s'
  | init {w e x f} (hx : (s.pool w).elem e = some x) (hstage : x.obj.stage = .indexed)
      (hf : f x.obj = { rxeMemInit x.index (rxeGetKey s.key)
        (x.obj.job.elim 0 (·.2.initAccess)) x.obj with stage := .keyed, draw := s.keys.length }) :
      KeyMove s (.init w e) { s.withPool w ((s.pool w).setObj e f) with
        key := rxeGetKey s.key, keys := s.keys ++ [memKey x.index (rxeGetKey s.key)] }
  | finish {w e x job} (hx : (s.pool w).elem e = some x) (hstage : x.obj.stage = .keyed)
      (hjob : x.obj.job = some job) :
      KeyMove s (.finish w e) (s.withPool w ((s.pool w).setObj e Region.finished))

theorem keyMove_of_step {a : MrAct} (h : MrInv s) (hstep : mrStep s a = some s') :
    KeyMove s a s' := by
  cases a with
  | pool w a =>
    obtain ⟨ha, hstep⟩ := Option.ite_none_right_eq_some.1 hstep
    obtain ⟨p', hp', rfl⟩ := Option.map_eq_some_iff.1 hstep
    exact .other (.withPool (.alloc ha hp')) rfl
  | index w e rot pd call =>
    obtain ⟨hguard, hstep⟩ := Option.ite_none_right_eq_some.1 hstep
    obtain ⟨x, hx, -⟩ := stageAt_eq hguard.1
    cases hstep
    refine .other (.withPool (.close (fun e' he => ?_) fun _ => rfl)) rfl
    rw [rxeAddIndex_elem rot hx, Function.update_of_ne he]
  | init w e =>
    dsimp only [mrStep] at hstep
    split at hstep
    · cases hstep
    · next x hx =>
      obtain ⟨hstage, ⟨⟩⟩ := Option.ite_none_right_eq_some.1 hstep
      exact .init hx hstage rfl
  | finish w e =>
    obtain ⟨hguard, hstep⟩ := Option.ite_none_right_eq_some.1 hstep
    obtain ⟨x, hx, hstage⟩ := stageAt_eq hguard
    cases hstep
    cases hjob : x.obj.job with
    | none =>
      refine .other (.withPool (.setElem fun y hy _ => ?_)) ?_
      · cases hx.symm.trans hy
        unfold Region.finished
        rw [hjob]
        exact ⟨rfl, rfl, rfl, rfl⟩
      · simp [handedBy, hx, hjob]
    | some job => exact .finish hx hstage hjob
  | map e pages iova =>
    obtain ⟨-, ⟨⟩⟩ := Option.ite_none_right_eq_some.1 hstep
    refine .other (.withPool (.setElem fun x _ _ => ?_)) rfl
    unfold rxeMemMapPages
    split <;> exact ⟨rfl, rfl, rfl, rfl⟩
  | unmap e =>
    obtain ⟨-, ⟨⟩⟩ := Option.ite_none_right_eq_some.1 hstep
    refine .other (.withPool (.setElem fun x _ _ => ?_)) rfl
    unfold rxeUnmapFmr
    split <;> exact ⟨rfl, rfl, rfl, rfl⟩
  -- what leaves the stages with a key may be written to
  | reject w e | dereg w e =>
    obtain ⟨-, ⟨⟩⟩ := Option.ite_none_right_eq_some.1 hstep
    exact .other (.withPool (.close (fun _ _ => rfl) fun _ => rfl)) rfl
  | dropIndex | dropOwn =>
    obtain ⟨-, ⟨⟩⟩ := Option.ite_none_right_eq_some.1 hstep
    exact .other (.withPool (.close (fun _ he => setElem_of_ne he) fun _ => rfl)) rfl
  | lookup pd access key type =>
    cases hstep
    exact .other (rxeLookupMem_kept h pd access key type) rfl
  | unref w e =>
    dsimp only [mrStep] at hstep
    split at hstep
    · cases hstep
    · obtain ⟨-, ⟨⟩⟩ := Option.ite_none_right_eq_some.1 hstep
      exact .other (.withPool (.setElem fun _ _ _ => ⟨rfl, rfl, rfl, rfl⟩)) rfl

end Steps

/-! ### The invariant -/

/-- What the keys handed out say about a region. -/
structure KeyedInv (keys : List ℕ) (handed : List (ℕ × ℕ)) (x : Elem Region) : Prop where
  drawn : keys[x.obj.draw]? = some x.obj.lkey
  -- the region keeps its index, so nobody else has drawn a key for it
  later : ∀ n k, x.obj.draw < n → keys[n]? = some k → k >>> 8 ≠ x.index
  out : x.obj.stage = .registered → (x.obj.draw, x.obj.lkey) ∈ handed
  kept : x.obj.stage = .keyed → ∀ k, (x.obj.draw, k) ∉ handed

structure FreshInv (s : KeySys) : Prop where
  mr : MrInv s.mr
  gen : s.mr.key = rxeGetKey^[s.mr.keys.length] 1
  drawn : ∀ n k, s.mr.keys[n]? = some k → k % 2 ^ 8 = keyAt n
  handed : ∀ n k, (n, k) ∈ s.handed → s.mr.keys[n]? = some k
  keyed : ∀ w e x, (s.mr.pool w).elem e = some x → x.obj.stage.hasKey →
    KeyedInv s.mr.keys s.handed x

section Invariant

variable {s s' : KeySys} {a : MrAct}

theorem freshInv_init (h : MrInit s.mr) (hnone : s.handed = []) : FreshInv s := by
  refine ⟨mrInit_inv h, ?_, ?_, ?_, ?_⟩
  · rw [h.1, h.2.1]
    rfl
  · rw [h.2.1]
    exact nofun
  · rw [hnone]
    exact nofun
  · intro w e x hx
    obtain ⟨maxElem, hinit⟩ := h.2.2 w
    obtain ⟨min, max, -, -, hp⟩ := rxePoolInit_eq hinit
    rw [hp] at hx
    cases hx

theorem FreshInv.index (h : FreshInv s) {e : ℕ}
    (hx : (s.mr.pool w).elem e = some x) (hkey : x.obj.stage.hasKey) :
    x.obj.lkey >>> 8 = x.index := ((h.mr.pools w).region e x hx).lkey hkey

theorem MrInv.region_inj {s : MrSys} (h : MrInv s) {e e' : ℕ}
    {x' : Elem Region} (hx : (s.pool w).elem e = some x) (hx' : (s.pool w').elem e' = some x')
    (hphase : x.phase = .indexed) (hphase' : x'.phase = .indexed) (hindex : x.index = x'.index) :
    w = w' ∧ e = e' := by
  have hpool : ∀ {w e x}, (s.pool w).elem e = some x → x.phase = .indexed →
      poolOf x.index = some w := fun {w e x} hx hphase =>
    poolOf_eq_some.2 ⟨_, _, (h.pools w).range, (h.pools w).pool.inRange e x hx hphase⟩
  have hw : w = w' := by
    have hleft := hpool hx hphase
    rw [hindex, hpool hx' hphase'] at hleft
    exact (Option.some.inj hleft).symm
  subst hw
  refine ⟨rfl, (h.pools w).pool.index_inj ⟨x, hx, hphase⟩ ⟨x', hx', hphase'⟩ ?_⟩
  rw [indexAt_of_elem hx, indexAt_of_elem hx', hindex]

theorem hasKey_indexed {stage : RegStage} (h : stage.hasKey) : stage.phase = .indexed := by
  cases stage <;> first | rfl | cases h

theorem FreshInv.draw_inj (h : FreshInv s) {e e' : ℕ} {x' : Elem Region}
    (hx : (s.mr.pool w).elem e = some x) (hx' : (s.mr.pool w').elem e' = some x')
    (hkey : x.obj.stage.hasKey) (hkey' : x'.obj.stage.hasKey) (hdraw : x.obj.draw = x'.obj.draw) :
    w = w' ∧ e = e' := by
  have hphase : x.phase = .indexed :=
    ((h.mr.pools w).region e x hx).phase.trans (hasKey_indexed hkey)
  have hphase' : x'.phase = .indexed :=
    ((h.mr.pools w').region e' x' hx').phase.trans (hasKey_indexed hkey')
  refine h.mr.region_inj hx hx' hphase hphase' ?_
  have hdrawn := (h.keyed w e x hx hkey).drawn
  rw [hdraw, (h.keyed w' e' x' hx' hkey').drawn] at hdrawn
  rw [← h.index hx hkey, ← h.index hx' hkey', Option.some.inj hdrawn]

theorem FreshInv.other (h : FreshInv s) {mr : MrSys} (hmr : MrInv mr) (hkept : MrKept s.mr mr) :
    FreshInv { s with mr } where
  mr := hmr
  gen := by
    show mr.key = rxeGetKey^[mr.keys.length] 1
    rw [hkept.key, hkept.keys]
    exact h.gen
  drawn := by
    show ∀ n k, mr.keys[n]? = some k → _
    rw [hkept.keys]
    exact h.drawn
  handed := by
    show ∀ n k, _ → mr.keys[n]? = some k
    rw [hkept.keys]
    exact h.handed
  keyed w e x' hx' hkey := by
    show KeyedInv mr.keys s.handed x'
    obtain ⟨x, hx, hindex, hstage, hdraw, hlkey⟩ := hkept.pools w e x' hx' hkey
    rw [← hstage] at hkey
    obtain ⟨hdrawn, hlater, hout, hkeep⟩ := h.keyed w e x hx hkey
    rw [hkept.keys]
    rw [hdraw, hlkey] at hdrawn hout
    rw [hdraw, hindex] at hlater
    rw [hdraw] at hkeep
    rw [hstage] at hout hkeep
    exact ⟨hdrawn, hlater, hout, hkeep⟩

theorem getElem?_concat {keys : List ℕ} {k k' n : ℕ} (h : (keys ++ [k])[n]? = some k') :
    keys[n]? = some k' ∨ n = keys.length ∧ k' = k := by
  rcases Nat.lt_trichotomy n keys.length with hn | hn | hn
  · rw [List.getElem?_append_left hn] at h
    exact Or.inl h
  · rw [hn, List.getElem?_concat_length] at h
    exact Or.inr ⟨hn, (Option.some.inj h).symm⟩
  · have hnone : (keys ++ [k])[n]? = none := by
      apply List.getElem?_eq_none
      rw [List.length_append, List.length_singleton]
      exact hn
    rw [hnone] at h
    cases h

theorem getElem?_concat_of_some {keys : List ℕ} {k n k' : ℕ} (h : keys[n]? = some k') :
    (keys ++ [k])[n]? = some k' := by
  have hn : n < keys.length := (List.getElem?_eq_some_iff.1 h).1
  rw [List.getElem?_append_left hn, h]

theorem FreshInv.init (h : FreshInv s) {e : ℕ} {f : Region → Region}
    {mr : MrSys} (hmr : MrInv mr) (hx : (s.mr.pool w).elem e = some x)
    (hstage : x.obj.stage = .indexed)
    (hf : f x.obj = { rxeMemInit x.index (rxeGetKey s.mr.key)
      (x.obj.job.elim 0 (·.2.initAccess)) x.obj with stage := .keyed, draw := s.mr.keys.length })
    (heq : mr = { s.mr.withPool w ((s.mr.pool w).setObj e f) with
      key := rxeGetKey s.mr.key, keys := s.mr.keys ++ [memKey x.index (rxeGetKey s.mr.key)] }) :
    FreshInv { s with mr } := by
  have hkey : rxeGetKey s.mr.key = keyAt s.mr.keys.length := by
    rw [h.gen]
    exact (Function.iterate_succ_apply' ..).symm
  have hphase : x.phase = .indexed := by
    rw [((h.mr.pools w).region e x hx).phase, hstage]
    rfl
  have hlt := (h.mr.pools w).index_lt hx hphase
  -- the key shows the index, and its byte the number of the draw
  have hindex : memKey x.index (rxeGetKey s.mr.key) >>> 8 = x.index :=
    memKey_shiftRight hlt (rxeGetKey_lt _)
  have hbound : ∀ n k, (n, k) ∈ s.handed → n < s.mr.keys.length := fun n k hmem =>
    (List.getElem?_eq_some_iff.1 (h.handed n k hmem)).1
  subst heq
  refine ⟨hmr, ?_, ?_, ?_, ?_⟩
  · show rxeGetKey s.mr.key = rxeGetKey^[(s.mr.keys ++ [_]).length] 1
    rw [hkey, List.length_append]
    rfl
  · intro n k hn
    rcases getElem?_concat hn with hold | ⟨rfl, rfl⟩
    · exact h.drawn n k hold
    · rw [memKey_byte (rxeGetKey_lt _), hkey]
  · intro n k hmem
    exact getElem?_concat_of_some (h.handed n k hmem)
  · intro w' e' y hy hhas
    show KeyedInv (s.mr.keys ++ [_]) s.handed y
    rcases setObj_cases hx hy with rfl | ⟨hy', hne⟩
    · rw [hf]
      refine ⟨List.getElem?_concat_length .., ?_, nofun, fun _ k hmem => ?_⟩
      · intro n k hlt' hn
        rcases getElem?_concat hn with hold | ⟨heq, -⟩
        · exact absurd (List.getElem?_eq_some_iff.1 hold).1 (Nat.lt_asymm hlt')
        · exact absurd heq hlt'.ne'
      · exact absurd (hbound _ k hmem) (lt_irrefl _)
    · obtain ⟨hdrawn, hlater, hout, hkeep⟩ := h.keyed w' e' y hy' hhas
      refine ⟨getElem?_concat_of_some hdrawn, ?_, hout, hkeep⟩
      intro n k hlt' hn
      rcases getElem?_concat hn with hold | ⟨-, rfl⟩
      · exact hlater n k hlt' hold
      · rw [hindex]
        intro hsame
        -- two regions with one index are the same region
        have hphase' : y.phase = .indexed :=
          ((h.mr.pools w').region e' y hy').phase.trans (hasKey_indexed hhas)
        exact hne (h.mr.region_inj hy' hx hphase' hphase hsame.symm)

theorem finished_draw {mem : Region} (hjob : mem.job = some job) :
    mem.finished.draw = mem.draw ∧ mem.finished.lkey = mem.lkey ∧
      mem.finished.stage = .registered := by
  unfold Region.finished
  rw [hjob]
  obtain ⟨pd, call⟩ := job
  cases call <;> exact ⟨rfl, rfl, rfl⟩

theorem FreshInv.finish (h : FreshInv s) {e : ℕ}
    (hmr : MrInv (s.mr.withPool w ((s.mr.pool w).setObj e Region.finished)))
    (hx : (s.mr.pool w).elem e = some x) (hstage : x.obj.stage = .keyed)
    (hjob : x.obj.job = some job) :
    FreshInv ⟨s.mr.withPool w ((s.mr.pool w).setObj e Region.finished),
      s.handed ++ [(x.obj.draw, x.obj.lkey)]⟩ := by
  have hhas : x.obj.stage.hasKey := by
    rw [hstage]
    rfl
  have hself := h.keyed w e x hx hhas
  refine ⟨hmr, h.gen, h.drawn, ?_, ?_⟩
  · intro n k hmem
    rcases List.mem_append.1 hmem with hold | hnew
    · exact h.handed n k hold
    · cases List.mem_singleton.1 hnew
      exact hself.drawn
  · intro w' e' y hy hhas'
    show KeyedInv s.mr.keys (s.handed ++ [_]) y
    rcases setObj_cases hx hy with rfl | ⟨hy', hne⟩
    · obtain ⟨hdraw, hlkey, hreg⟩ := finished_draw hjob
      refine ⟨?_, ?_, fun _ => ?_, fun hk => nomatch hk.symm.trans hreg⟩ <;> dsimp only
      · rw [hdraw, hlkey]
        exact hself.drawn
      · rw [hdraw]
        exact hself.later
      · rw [hdraw, hlkey]
        exact List.mem_append_right _ List.mem_cons_self
    · obtain ⟨hdrawn, hlater, hout, hkeep⟩ := h.keyed w' e' y hy' hhas'
      refine ⟨hdrawn, hlater, fun hr => List.mem_append_left _ (hout hr), fun hk k hmem => ?_⟩
      rcases List.mem_append.1 hmem with hold | hnew
      · exact hkeep hk k hold
      -- each region in a keyed stage has its own draw
      · have hdraw : y.obj.draw = x.obj.draw := congrArg Prod.fst (List.mem_singleton.1 hnew)
        exact hne (h.draw_inj hy' hx hhas' hhas hdraw)

theorem handedBy_finish {s : MrSys} {e : ℕ}
    (hx : (s.pool w).elem e = some x) (hjob : x.obj.job = some job) :
    handedBy s (.finish w e) = [(x.obj.draw, x.obj.lkey)] := by
  simp [handedBy, hx, hjob]

theorem FreshInv.step (h : FreshInv s) (hok : MrOk s.mr a) (hstep : keyStep s a = some s') :
    FreshInv s' := by
  obtain ⟨mr, hmr, rfl⟩ := Option.map_eq_some_iff.1 hstep
  have hinv := h.mr.step hok hmr
  cases keyMove_of_step h.mr hmr with
  | other hkept hhanded =>
    rw [hhanded, List.append_nil]
    exact h.other hinv hkept
  | init hx hstage hf =>
    have hinit := h.init hinv hx hstage hf rfl
    rwa [← List.append_nil s.handed] at hinit
  | finish hx hstage hjob =>
    rw [handedBy_finish hx hjob]
    exact h.finish hinv hx hstage hjob

end Invariant

/-! ### Freshness -/

section Fresh

variable {s s' : KeySys} {a : MrAct}

theorem keyAt_ne_zero (n : ℕ) : keyAt n ≠ 0 := by
  have hsmall : ∀ m < 15, keyAt m ≠ 0 := by decide
  rw [← keyAt_mod]
  exact hsmall _ (Nat.mod_lt _ (by decide))

/-- A key of its own registration, or of one a multiple of 15 away, has the same byte. -/
theorem FreshInv.byte_iff (h : FreshInv s) {m n k k' : ℕ} (hm : s.mr.keys[m]? = some k)
    (hn : s.mr.keys[n]? = some k') : k % 2 ^ 8 = k' % 2 ^ 8 ↔ m % 15 = n % 15 := by
  rw [h.drawn m k hm, h.drawn n k' hn, keyAt_inj]

theorem key_ext {k k' : ℕ} (hindex : k >>> 8 = k' >>> 8) (hbyte : k % 2 ^ 8 = k' % 2 ^ 8) :
    k = k' := by
  omega

/-- As long as keys do not come again, the key of a region that is gone finds nothing. -/
theorem FreshInv.stale (h : FreshInv s)
    (hfresh : ∀ m n k, (m, k) ∈ s.handed → (n, k) ∈ s.handed → m < n → m + 254 < n) {n k : ℕ}
    (hmem : (n, k) ∈ s.handed) (hdead : ¬ s.Live n) (hlen : s.mr.keys.length ≤ n + 255)
    (pd access : ℕ) (type : LookupType) : (rxeLookupMem s.mr pd access k type).1 = none := by
  have hn := h.handed n k hmem
  have hne : k ≠ 0 := by
    intro hzero
    have hbyte := h.drawn n k hn
    rw [hzero] at hbyte
    exact keyAt_ne_zero n hbyte.symm
  rcases h.mr.lookup pd access type hne with ⟨⟨w, e⟩, hr, -⟩ | ⟨-, heq⟩
  · exfalso
    obtain ⟨x, hx, hstage, hhas, hlkey⟩ := hr.lkey h.mr hne
    have hself := h.keyed w e x hx hhas
    have hout := hself.out hstage
    rw [hlkey] at hout
    rcases Nat.lt_trichotomy x.obj.draw n with hlt | heq | hgt
    · -- the region has kept its index since, so the later key is not for it
      refine hself.later n k hlt hn ?_
      rw [← hlkey, h.index hx hhas]
    · exact hdead ⟨w, e, x, hx, hstage, heq⟩
    -- a key equal to this one is 255 draws later at least
    · have hfar := hfresh n x.obj.draw k hmem hout hgt
      have hbound := (List.getElem?_eq_some_iff.1 hself.drawn).1
      omega
  · rw [heq]

theorem handedBy_unique {s : MrSys} {m n k k' : ℕ} (hm : (m, k) ∈ handedBy s a)
    (hn : (n, k') ∈ handedBy s a) : m = n := by
  cases a with
  | finish w e =>
    dsimp only [handedBy] at hm hn
    cases hx : (s.pool w).elem e with
    | none =>
      rw [hx] at hm
      cases hm
    | some x =>
      rw [hx] at hm hn
      simp only [Option.toList_some, List.mem_filterMap, List.mem_singleton, exists_eq_left,
        Option.map_eq_some_iff, Prod.mk.injEq] at hm hn
      obtain ⟨-, -, hm, -⟩ := hm
      obtain ⟨-, -, hn, -⟩ := hn
      exact hm.symm.trans hn
  | _ => cases hm

theorem FreshInv.handedBy (h : FreshInv s) (hstep : mrStep s.mr a ≠ none) {n k : ℕ}
    (hmem : (n, k) ∈ handedBy s.mr a) : ∃ w e x, (s.mr.pool w).elem e = some x ∧
      x.obj.stage = .keyed ∧ x.obj.draw = n ∧ x.obj.lkey = k := by
  obtain ⟨mr, hmr⟩ := Option.ne_none_iff_exists'.1 hstep
  cases keyMove_of_step h.mr hmr with
  | other _ hhanded =>
    rw [hhanded] at hmem
    cases hmem
  | init => cases hmem
  | finish hx hstage hjob =>
    rw [handedBy_finish hx hjob] at hmem
    cases List.mem_singleton.1 hmem
    exact ⟨_, _, _, hx, hstage, rfl, rfl⟩

theorem FreshInv.fresh_iff (h : FreshInv s) (hok : MrOk s.mr a) (hstep : keyStep s a = some s')
    (hfresh : KeysFresh s) : KeysFresh s' ↔ FreshOk s a := by
  have h' := h.step hok hstep
  obtain ⟨mr, hmr, rfl⟩ := Option.map_eq_some_iff.1 hstep
  have htaken : mrStep s.mr a ≠ none := by
    rw [hmr]
    nofun
  constructor
  · intro hnew n k hnk m k' hmk hlt hmod hnear hindex
    have hold : (m, k') ∈ s.handed ++ Rxe.handedBy s.mr a := List.mem_append_left _ hmk
    have hret : (n, k) ∈ s.handed ++ Rxe.handedBy s.mr a := List.mem_append_right _ hnk
    have hbyte := (h'.byte_iff (h'.handed m k' hold) (h'.handed n k hret)).2 hmod
    obtain rfl := key_ext hindex hbyte
    have hfar := hnew.1 m n k' hold hret hlt
    omega
  · intro hcond
    have hnorepeat : ∀ m n k, (m, k) ∈ s.handed ++ Rxe.handedBy s.mr a →
        (n, k) ∈ s.handed ++ Rxe.handedBy s.mr a → m < n → m + 254 < n := by
      intro m n k hm hn hlt
      have hmod := (h'.byte_iff (h'.handed m k hm) (h'.handed n k hn)).1 rfl
      rcases List.mem_append.1 hm with hm | hm <;> rcases List.mem_append.1 hn with hn | hn
      · exact hfresh.1 m n k hm hn hlt
      -- here the condition is used: a repetition is not near
      · by_contra hnear
        exact hcond n k hn m k hm hlt hmod (by omega) rfl
      · -- a key drawn later is not for the index that the region still has
        obtain ⟨w, e, x, hx, hstage, rfl, rfl⟩ := h.handedBy htaken hm
        have hhas : x.obj.stage.hasKey := by
          rw [hstage]
          rfl
        exact absurd (h.index hx hhas) ((h.keyed w e x hx hhas).later n _ hlt (h.handed n _ hn))
      · exact absurd (handedBy_unique hm hn) hlt.ne
    exact ⟨hnorepeat, fun n k hmem hdead hlen => h'.stale hnorepeat hmem hdead hlen⟩

end Fresh

open Trace in
/-- In a run of registrations, deregistrations and lookups the keys stay fresh exactly if every
registration that returns meets the condition. -/
theorem keys_fresh_iff (run : Run keyStep) (hinit : MrInit (run.state 0).mr)
    (hnone : (run.state 0).handed = [])
    (hrot : ∀ t a, run.act t = some a → MrOk (run.state t).mr a) :
    (∀ t, KeysFresh (run.state t)) ↔ ∀ t a, run.act t = some a → FreshOk (run.state t) a := by
  have hinv : ∀ t, FreshInv (run.state t) := fun t =>
    run.inv_until (C := fun s a => MrOk s.mr a) (freshInv_init hinit hnone)
      (fun _ _ _ h hok hstep => h.step hok hstep) t fun u _ => hrot u
  refine run.always_iff ?_ fun t a hact => ?_
  · unfold KeysFresh
    rw [hnone]
    exact ⟨nofun, nofun⟩
  · exact (hinv t).fresh_iff (hrot t a hact) (run.taken t a hact)

/-- `rxe_get_dma_mr` and `rxe_dereg_mr`, on a region at address 5. -/
def getAndDereg : List MrAct :=
  getDmaMr ++ [.dereg .mr 5, .dropIndex .mr 5 id, .dropOwn .mr 5, .pool .mr (.free 5),
    .pool .mr .discount, .pool .mr .put]

theorem getAndDereg_ok {acts : List MrAct} (hacts : ∀ a ∈ acts, a ∈ getAndDereg) (s : MrSys) :
    ∀ a ∈ acts, MrOk s a := by
  intro a ha
  have hmem := hacts a ha
  simp only [getAndDereg, getDmaMr, List.cons_append, List.nil_append, List.mem_cons,
    List.not_mem_nil, or_false] at hmem
  rcases hmem with rfl | rfl | rfl | rfl | rfl | rfl | rfl | rfl | rfl | rfl | rfl | rfl
  all_goals first | trivial | exact rebalances_id

open Trace in
/-- A region is registered, deregistered and registered again: the second registration has the
index of the first and another key. -/
theorem keys_fresh_again :
    let run := Run.ofActs keyStep { mr := twoRegions } (getAndDereg ++ getDmaMr)
    (run.state 18).handed = [(0, 0x102), (1, 0x104)] ∧ KeysFresh (run.state 18) := by
  intro run
  have hfirst : (run.state 17).handed = [(0, 0x102)] := rfl
  have hagain : handedBy (run.state 17).mr (.finish .mr 5) = [(1, 0x104)] := rfl
  refine ⟨rfl, (keys_fresh_iff run twoRegions_init rfl ?_).2 ?_ 18⟩
  · intro t a hact
    have hmem := List.mem_of_getElem? (Option.filter_eq_some_iff.1 hact).1
    refine getAndDereg_ok (fun a ha => ?_) _ a hmem
    rcases List.mem_append.1 ha with ha | ha
    · exact ha
    · exact List.mem_append_left _ ha
  · intro t a hact n k hnk m k' hmk
    have ha := (Option.filter_eq_some_iff.1 hact).1
    match t with
    | 5 => cases hmk
    | 17 =>
      -- the two registrations are not a multiple of 15 apart
      cases ha
      rw [hagain, List.mem_singleton] at hnk
      rw [hfirst, List.mem_singleton] at hmk
      cases hnk
      cases hmk
      intro _ hmod
      cases hmod
    | 0 | 1 | 2 | 3 | 4 | 6 | 7 | 8 | 9 | 10 | 11 | 12 | 13 | 14 | 15 | 16 =>
      cases ha
      cases hnk
    | t + 18 => cases ha

/-- Sixteen registrations of one region, each deregistered before the next: the last gets the
key of the first, and the key of the first finds the region of the last. -/
theorem keys_not_fresh : ∃ s,
    ((List.replicate 15 getAndDereg).flatten ++ getDmaMr).foldlM keyStep { mr := twoRegions } =
        some s ∧
      (0, 0x102) ∈ s.handed ∧ (15, 0x102) ∈ s.handed ∧
      (rxeLookupMem s.mr 9 2 0x102 .remote).1 = some (.mr, 5) ∧ ¬ KeysFresh s := by
  have hrun : (((List.replicate 15 getAndDereg).flatten ++ getDmaMr).foldlM keyStep
      { mr := twoRegions }).map (fun s => ((0, 0x102) ∈ s.handed && (15, 0x102) ∈ s.handed,
        (rxeLookupMem s.mr 9 2 0x102 .remote).1)) = some (true, some (.mr, 5)) := by
    decide +kernel
  obtain ⟨s, hs, heq⟩ := Option.map_eq_some_iff.1 hrun
  obtain ⟨hmem, hfound⟩ := Prod.mk.inj heq
  rw [Bool.and_eq_true, decide_eq_true_iff, decide_eq_true_iff] at hmem
  refine ⟨s, hs, hmem.1, hmem.2, hfound, fun hfresh => ?_⟩
  have hfar := hfresh.1 0 15 0x102 hmem.1 hmem.2 (by decide)
  omega

end Rxe

import TsPacket.Bpf.TcxAttach

/-!
# Runs of the attaching tool

That every link of a tcx chain has one pin is the invariant under which `tcx_attach` does what
its exit code says.  The chains are then rows of pins, a `Board`, and whatever the tool is called
with, and whatever goes on around it, does to these rows what a few actions do.

## Main definitions

* `Represented` — the chains as rows of pins.
* `TcxEvent.Removes`, `TcxEvent.Fronts`, `Along` — what an event may do to a hook, along a run.
* `refLibbpf` — a kernel with one interface.

## Main results

* `exec_represented` — every event is actions on the rows of pins.
* `tcx_attach_reachable` — **no link is left without a pin, and a command that fails leaves
  chains and pins as they were**, after any sequence of events.
* `tcx_attach_order` — **programs keep their order, and the head stays in front** until another
  program is attached before it.
-/

namespace TsPacket

open PyText HookBoard

variable {Sys Obj Prog Link : Type} {L : Libbpf Sys Obj Prog Link}

/-! ### The chains as rows of pins -/

/-- The chains are the rows of the board, and the pins in use are its names. -/
structure Represented (L : Libbpf Sys Obj Prog Link) (s : Sys) (b : Board Hook Str) : Prop where
  rows : Represents (L.Held s) (L.chain s) b
  used : ∀ path, path ∈ b.used ↔ L.pinned s path ≠ none

namespace Represented

variable {s s' : Sys} {b : Board Hook Str}

theorem one (hr : Represented L s b) {l : Link} {p q : Str} (hp : L.Held s l p)
    (hq : L.Held s l q) : p = q := hr.rows.name hp hq

/-- What changes neither chains nor pins. -/
theorem same (hr : Represented L s b) (hchain : L.chain s' = L.chain s)
    (hpinned : L.pinned s' = L.pinned s) : Represented L s' b := by
  have hheld : L.Held s' = L.Held s := by
    funext l path
    rw [Libbpf.Held, Libbpf.Held, hpinned]
  exact ⟨by rw [hheld, hchain]; exact hr.rows, fun path => by rw [hpinned]; exact hr.used path⟩

theorem attached (hr : Represented L s b) {argv : List Str} {dir : TcxDir} {l : Link}
    (ha : Attached L argv dir l s s') :
    ∃ hx, Represented L s' (b.attach (L.ifNametoindex s (argv.getD 2 []), dir) (wantsBefore argv)
      (argv.getD 4 []) hx) := by
  have hfree : argv.getD 4 [] ∉ b.used := fun h => (hr.used _).mp h ha.free
  -- the rows get one entry, at the end of the chain that was asked for
  refine ⟨hfree, hr.rows.attach hfree ha.fresh.2 (fun l' hl' => ?_) ha.chain fun {l' path} => ?_,
    fun path => ?_⟩
  · rw [Libbpf.Held, ha.free] at hl'
    cases hl'
  · rw [Libbpf.Held, Libbpf.Held, ha.pinned]
    by_cases hpath : path = argv.getD 4 []
    · rw [hpath, Function.update_self, ha.free]
      simp [eq_comm]
    · rw [Function.update_of_ne hpath]
      exact ⟨Or.inl, fun h => h.resolve_right fun h => hpath h.2⟩
  · -- a path is in use if it was, or if the link is pinned there now
    change path = argv.getD 4 [] ∨ path ∈ b.used ↔ _
    rw [hr.used, ha.pinned]
    by_cases hpath : path = argv.getD 4 []
    · rw [hpath, Function.update_self]
      exact ⟨fun _ => Option.some_ne_none _, fun _ => Or.inl rfl⟩
    · rw [Function.update_of_ne hpath]
      exact ⟨fun h => h.resolve_left hpath, Or.inr⟩

/-- Interfaces go, with the links on them; the pins stay. -/
theorem cleared (hr : Represented L s b) {gone : Hook → Bool}
    (hchain : ∀ h, L.chain s' h = (L.chain s h).filter fun _ => !gone h)
    (hpinned : L.pinned s' = L.pinned s) : Represented L s' (b.clear gone) := by
  have hheld : L.Held s' = L.Held s := by
    funext l path
    rw [Libbpf.Held, Libbpf.Held, hpinned]
  refine ⟨hr.rows.keep _ (fun _ => rfl) hchain (fun hq _ _ => hheld ▸ hq) fun hq => hheld ▸ hq,
    fun path => ?_⟩
  rw [hpinned]
  exact hr.used path

variable [DecidableEq Link]

/-- The links that stay when a path is given up are those with another pin. -/
theorem stays_iff (hr : Represented L s b) {p : Str} {o : Pinned Link}
    (ho : L.pinned s p = some o) {l : Link} {q : Str} (hq : L.Held s l q) :
    stays o l = decide (q ≠ p) := by
  rw [Bool.eq_iff_iff, decide_eq_true_iff]
  cases o with
  | link l₀ =>
    rw [stays, decide_eq_true_iff]
    exact not_congr ⟨fun hl => hr.one (hl ▸ hq) ho, fun hqp => hr.rows.handle hq (hqp ▸ ho)⟩
  | other =>
    refine ⟨fun _ hqp => ?_, fun _ => rfl⟩
    rw [Libbpf.Held, hqp, ho] at hq
    cases hq

/-- The link goes, its pin stays. -/
theorem withdrawn (hr : Represented L s b) {p : Str} {o : Pinned Link}
    (ho : L.pinned s p = some o) (hchain : ∀ h, L.chain s' h = without o (L.chain s h))
    (hpinned : L.pinned s' = L.pinned s) : Represented L s' (b.withdraw p) := by
  have hheld : L.Held s' = L.Held s := by
    funext l path
    rw [Libbpf.Held, Libbpf.Held, hpinned]
  refine ⟨hr.rows.keep _ (fun hq => (hr.stays_iff ho hq).symm ▸ rfl) hchain
    (fun hq _ _ => hheld ▸ hq) fun hq => hheld ▸ hq, fun path => ?_⟩
  rw [hpinned]
  exact hr.used path

/-- The link goes with its pin. -/
theorem released (hr : Represented L s b) {p : Str} {o : Pinned Link}
    (ho : L.pinned s p = some o) (hchain : ∀ h, L.chain s' h = without o (L.chain s h))
    (hpinned : L.pinned s' = Function.update (L.pinned s) p none) :
    Represented L s' (b.release p) := by
  -- what is pinned elsewhere stays
  have hheld : ∀ {l q}, L.Held s' l q ↔ L.Held s l q ∧ q ≠ p := by
    intro l q
    rw [Libbpf.Held, Libbpf.Held, hpinned]
    by_cases hqp : q = p
    · rw [hqp, Function.update_self]
      exact ⟨fun h => absurd h.symm (Option.some_ne_none _), fun h => absurd rfl h.2⟩
    · rw [Function.update_of_ne hqp]
      exact ⟨fun h => ⟨h, hqp⟩, fun h => h.1⟩
  refine ⟨hr.rows.keep (b.mem_used_diff p) (fun hq => hr.stays_iff ho hq) hchain
    (fun hq _ hqp => hheld.mpr ⟨hq, of_decide_eq_true hqp⟩) fun hq => (hheld.mp hq).1,
    fun path => ?_⟩
  change path ∈ b.used ∧ path ≠ p ↔ _
  rw [hr.used, hpinned]
  by_cases hqp : path = p
  · rw [hqp, Function.update_self]
    exact ⟨fun h => absurd rfl h.2, fun h => absurd rfl h⟩
  · rw [Function.update_of_ne hqp]
    exact ⟨fun h => h.1, fun h => ⟨h, hqp⟩⟩

end Represented

/-! ### A kernel with one interface -/

/-- A program with its name and where it is to be attached. -/
abbrev RefProg := Str × Option TcxDir

/-- A link, by its id. -/
abbrev RefLink := ℕ × RefProg

/-- `next` is the id of the next link. -/
structure RefSys where
  chain : Hook → List RefLink
  pinned : Str → Option (Pinned RefLink)
  next : ℕ
  up : Bool
  chain_lt : ∀ {h l}, l ∈ chain h → l.1 < next
  pinned_lt : ∀ {path l}, pinned path = some (.link l) → l.1 < next

namespace RefSys

/-- Nothing is attached and nothing pinned. -/
def fresh : RefSys where
  chain _ := []
  pinned _ := none
  next := 1
  up := true
  chain_lt h := absurd h List.not_mem_nil
  pinned_lt h := absurd h.symm (Option.some_ne_none _)

/-- Some links go. -/
def keep (p : Hook → RefLink → Bool) (s : RefSys) : RefSys :=
  { s with
    chain := fun h => (s.chain h).filter (p h)
    chain_lt := fun h => s.chain_lt (List.mem_of_mem_filter h) }

/-- A link at one end of a chain, with the next identifier. -/
def link (p : RefProg) (h : Hook) (before : Bool) (s : RefSys) : RefSys where
  chain := Function.update s.chain h (Board.place before (s.next, p) (s.chain h))
  pinned := s.pinned
  next := s.next + 1
  up := s.up
  chain_lt {h' l} hl := by
    by_cases hh : h' = h
    · rw [hh, Function.update_self, Board.mem_place] at hl
      rcases hl with rfl | hl
      · exact Nat.lt_succ_self _
      · exact Nat.lt_succ_of_lt (s.chain_lt hl)
    · rw [Function.update_of_ne hh] at hl
      exact Nat.lt_succ_of_lt (s.chain_lt hl)
  pinned_lt h := Nat.lt_succ_of_lt (s.pinned_lt h)

/-- A link is pinned if it is one of the system's and the path is free. -/
def pin (l : RefLink) (path : Str) (s : RefSys) : Except Str RefSys :=
  if h : (s.pinned path).isNone ∧ l.1 < s.next then .ok
    { s with
      pinned := Function.update s.pinned path (some (.link l))
      pinned_lt := by
        intro path' l' hl
        by_cases hp : path' = path
        · rw [hp, Function.update_self, Option.some_inj, Pinned.link.injEq] at hl
          exact hl ▸ h.2
        · rw [Function.update_of_ne hp] at hl
          exact s.pinned_lt hl }
  else .error "File exists".toList

/-- The path is free again. -/
def unpin (path : Str) (s : RefSys) : RefSys :=
  { s with
    pinned := Function.update s.pinned path none
    pinned_lt := by
      intro path' l' hl
      by_cases hp : path' = path
      · rw [hp, Function.update_self] at hl
        exact absurd hl.symm (Option.some_ne_none _)
      · rw [Function.update_of_ne hp] at hl
        exact s.pinned_lt hl }

end RefSys

/-- One interface, `tcxv0`; an object file holds a program of its own name. -/
def refLibbpf : Libbpf RefSys Str RefProg RefLink where
  chain s := s.chain
  pinned s := s.pinned
  prog l := l.2
  attachType p := p.2
  programName p := p.1
  progId l := l.1
  linkId l := l.1
  ifNametoindex s name := if s.up && name == "tcxv0".toList then 1 else 0
  openFile _ path := .ok path
  nextProgram obj := some (obj, none)
  setType p := p
  setExpectedAttachType p dir := .ok (p.1, some dir)
  load _ _ s := .ok s
  -- a program without a direction cannot be attached
  attachTcx p ifindex before s :=
    match p.2 with
    | none => .error "Invalid argument".toList
    | some dir => .ok ((s.next, p), s.link p (ifindex, dir) before)
  pin l path s := s.pin l path
  destroy l s := s.keep fun _ l' => l' ≠ l
  objGet s path :=
    match s.pinned path with
    | none => .error "No such file or directory".toList
    | some o => .ok o
  -- what is pinned may be no link at all
  linkDetach o s :=
    match o with
    | .link l => .ok (s.keep fun _ l' => l' ≠ l)
    | .other => .error "Invalid argument".toList
  unlink path s :=
    match s.pinned path with
    | none => .error "No such file or directory".toList
    | some o => .ok ((s.unpin path).keep fun _ => stays o)
  progQuery s h := .ok ((s.chain h).map fun l => (l.1, l.1))
  progInfo _ id := some (strOf id)
  ipLinkAdd _ s := .ok s
  ipLinkDel _ s := .ok ({ s with up := false }.keep fun h _ => !h.1 == 1)
  gone _ _ ifindex := ifindex == 1

theorem refLibbpf_documented : refLibbpf.Documented where
  setExpectedAttachType h := by cases h; rfl
  load h := by cases h; exact ⟨rfl, rfl⟩
  -- the identifier is new, so no chain and no pin has it
  attachTcx {p ifindex before s l s'} h := by
    obtain ⟨name, _ | dir⟩ := p
    · exact nomatch h
    · cases h
      refine ⟨fun h hl => Nat.lt_irrefl _ (s.chain_lt hl), fun path hl => ?_, rfl, rfl,
        dir, rfl, rfl⟩
      exact Nat.lt_irrefl _ (s.pinned_lt hl)
  -- a path is pinned once
  pin {l path s s'} h := by
    change RefSys.pin l path s = .ok s' at h
    rw [RefSys.pin] at h
    by_cases hfree : (s.pinned path).isNone ∧ l.1 < s.next
    · rw [dif_pos hfree] at h
      cases h
      exact ⟨Option.isNone_iff_eq_none.mp hfree.1, rfl, rfl⟩
    · rw [dif_neg hfree] at h
      exact nomatch h
  destroy := ⟨rfl, fun _ => rfl⟩
  objGet {s path o} h := by
    change (match s.pinned path with | none => _ | some o => _) = _ at h
    cases ho : s.pinned path with
    | none => rw [ho] at h; exact nomatch h
    | some o => rw [ho] at h; cases h; exact ho
  linkDetach {o s s'} h := by
    cases o with
    | other => exact nomatch h
    | link l => cases h; exact ⟨rfl, l, rfl, fun _ => rfl⟩
  -- a link that is pinned nowhere else goes with its pin
  unlink {path s s'} h := by
    change (match s.pinned path with | none => _ | some o => _) = _ at h
    cases ho : s.pinned path with
    | none => rw [ho] at h; exact nomatch h
    | some o =>
      rw [ho] at h
      cases h
      refine ⟨rfl, fun l hl _ h => ?_, fun hnone => ?_⟩
      · obtain rfl : o = .link l := Option.some.inj (ho.symm.trans hl)
        rfl
      · cases o with
        | link l => exact absurd ho (hnone l)
        | other => exact funext fun h => List.filter_true _
  progQuery h := by cases h; rfl
  ipLinkAdd h := by cases h; exact ⟨rfl, rfl⟩
  ipLinkDel h := by cases h; exact ⟨rfl, fun _ => rfl⟩

/-- `tcx_attach attach tcxv0`, with the rest of the arguments. -/
def refAttach (obj pin place : String) : List Str :=
  ["tcx_attach", "attach", "tcxv0", obj, pin, "egress", place].map String.toList

/-- The arguments to detach what is pinned. -/
def refDetach (pin : String) : List Str := ["tcx_attach", "detach", pin].map String.toList

/-! ### Whole runs -/

/-- The event takes what is pinned at `path` off the hook. -/
def TcxEvent.Removes (L : Libbpf Sys Obj Prog Link) (s : Sys) (h : Hook) (path : Str) :
    TcxEvent → Prop
  | .invoke argv => wantsDetach argv ∧ argv.getD 2 [] = path
  | .rm path' => path' = path
  | .linkAdd _ => False
  | .linkDel name => L.gone s name h.1

/-- The event attaches a program in front of the others at the hook. -/
def TcxEvent.Fronts (L : Libbpf Sys Obj Prog Link) (s : Sys) (h : Hook) : TcxEvent → Prop
  | .invoke argv => wantsAttach argv ∧ (tcxAttach L argv s).code = 0 ∧
      L.ifNametoindex s (argv.getD 2 []) = h.1 ∧ parseDir argv[5]? = some h.2 ∧ wantsBefore argv
  | _ => False

/-- `P` holds of every event when it happens. -/
def Along (L : Libbpf Sys Obj Prog Link) (P : Sys → TcxEvent → Prop) : Sys → List TcxEvent → Prop
  | _, [] => True
  | s, e :: es => P s e ∧ Along L P (exec L s e).sys es

theorem Along.imp {P Q : Sys → TcxEvent → Prop} (hPQ : ∀ s e, P s e → Q s e) :
    ∀ (es : List TcxEvent) {s : Sys}, Along L P s es → Along L Q s es := by
  intro es
  induction es with
  | nil => intro _ _; trivial
  | cons e es ih => intro s h; exact ⟨hPQ s e h.1, ih h.2⟩

/-- No program is attached anywhere, and no link is pinned. -/
def Fresh (L : Libbpf Sys Obj Prog Link) (s : Sys) : Prop :=
  (∀ h, L.chain s h = []) ∧ ∀ l path, ¬ L.Held s l path

theorem Fresh.represented {s : Sys} (hs : Fresh L s) :
    Represented L s (.empty fun path => L.pinned s path ≠ none) :=
  ⟨⟨fun h => by rw [hs.1 h]; exact .nil, fun h => absurd h (hs.2 _ _),
    fun h => absurd h (hs.2 _ _)⟩, fun _ => Iff.rfl⟩

theorem fresh_refLibbpf : Fresh refLibbpf RefSys.fresh :=
  ⟨fun _ => rfl, fun _ _ h => absurd h.symm (Option.some_ne_none _)⟩

/-- The actions on the rows of pins do no more than the event says. -/
structure Justified (L : Libbpf Sys Obj Prog Link) (s : Sys) (e : TcxEvent)
    (as : List (Act Hook Str)) : Prop where
  removes : ∀ {a h path}, a ∈ as → a.Removes h path → e.Removes L s h path
  fronts : ∀ {a h}, a ∈ as → a.Fronts h → e.Fronts L s h

theorem Justified.nil {s : Sys} {e : TcxEvent} : Justified L s e [] :=
  ⟨fun ha => absurd ha List.not_mem_nil, fun ha => absurd ha List.not_mem_nil⟩

theorem Justified.single {s : Sys} {e : TcxEvent} {a : Act Hook Str}
    (hremoves : ∀ {h path}, a.Removes h path → e.Removes L s h path)
    (hfronts : ∀ {h}, a.Fronts h → e.Fronts L s h) : Justified L s e [a] :=
  ⟨fun ha => List.mem_singleton.mp ha ▸ hremoves, fun ha => List.mem_singleton.mp ha ▸ hfronts⟩

/-- An event as actions on the rows of pins. -/
def Simulated (L : Libbpf Sys Obj Prog Link) (s : Sys) (e : TcxEvent) (b : Board Hook Str) : Prop :=
  ∃ as b', Steps b as b' ∧ Represented L (exec L s e).sys b' ∧ Justified L s e as

theorem Simulated.same {s : Sys} {e : TcxEvent} {b : Board Hook Str} (hr : Represented L s b)
    (hchain : L.chain (exec L s e).sys = L.chain s)
    (hpinned : L.pinned (exec L s e).sys = L.pinned s) : Simulated L s e b :=
  ⟨[], b, .refl b, hr.same hchain hpinned, .nil⟩

theorem Simulated.step {s : Sys} {e : TcxEvent} {b b' : Board Hook Str} {a : Act Hook Str}
    (hstep : Step b a b') (hr : Represented L (exec L s e).sys b')
    (hremoves : ∀ {h path}, a.Removes h path → e.Removes L s h path)
    (hfronts : ∀ {h}, a.Fronts h → e.Fronts L s h) : Simulated L s e b :=
  ⟨[a], b', .cons hstep (.refl b'), hr, .single hremoves hfronts⟩

section Runs

variable [DecidableEq Link]

/-- What an invocation does, where every link has one pin. -/
theorem tcxAttach_did (hL : L.Documented) {s : Sys} {b : Board Hook Str} (hr : Represented L s b)
    (argv : List Str) : Did L argv s (tcxAttach L argv s) := by
  rw [tcxAttach]
  by_cases hatt : wantsAttach argv
  · rw [if_pos hatt]
    exact doAttach_did hL hatt s
  rw [if_neg hatt]
  by_cases hdet : wantsDetach argv
  · rw [if_pos hdet]
    exact doDetach_did hL hdet hr.one
  rw [if_neg hdet]
  by_cases hquery : wantsQuery argv
  · rw [if_pos hquery]
    exact doQuery_did hL hquery s
  · rw [if_neg hquery]
    exact .refused (Or.inr rfl) rfl rfl

theorem simulated_invoke (hL : L.Documented) {s : Sys} {b : Board Hook Str}
    (hr : Represented L s b) (argv : List Str) : Simulated L s (.invoke argv) b := by
  cases tcxAttach_did hL hr argv with
  | failed _ hchain hpinned _ => exact .same hr hchain hpinned
  | attached hask hcode ha =>
    obtain ⟨hx, hr'⟩ := hr.attached ha
    refine .step (.attach hx) hr' (fun h => absurd h id) fun hf => ?_
    obtain ⟨rfl, hbefore⟩ := hf
    exact ⟨hask, hcode, rfl, ha.parsed, hbefore⟩
  | detached hask hcode ho hchain hpinned =>
    exact .step .release (hr.released ho hchain hpinned) (fun hp => ⟨hask, hp⟩)
      fun hf => absurd hf id
  | halfDetached hask hcode ho hchain hpinned =>
    exact .step .withdraw (hr.withdrawn ho hchain hpinned) (fun hp => ⟨hask, hp⟩)
      fun hf => absurd hf id
  | listed hask hcode _ _ =>
    exact .same hr (congrArg L.chain hcode.2) (congrArg L.pinned hcode.2)

/-- **Every event is actions on the rows of pins**, and no more than the event says. -/
theorem exec_represented (hL : L.Documented) {s : Sys} {b : Board Hook Str}
    (hr : Represented L s b) (e : TcxEvent) : Simulated L s e b := by
  cases e with
  | invoke argv => exact simulated_invoke hL hr argv
  | rm path =>
    cases hun : L.unlink path s with
    | error e => exact .same hr (by rw [exec, hun]; rfl) (by rw [exec, hun]; rfl)
    | ok s' =>
      have hsys : (exec L s (.rm path)).sys = s' := by rw [exec, hun]; rfl
      -- a path that is no pin is a file of no concern
      cases ho : L.pinned s path with
      | none =>
        have hnone : ∀ l, ¬ L.Held s l path := fun l hl => by rw [Libbpf.Held, ho] at hl; cases hl
        obtain ⟨hpinned, -, hother⟩ := hL.unlink hun
        refine .same hr (by rw [hsys, hother hnone]) ?_
        rw [hsys, hpinned, ← ho, Function.update_eq_self]
      | some o =>
        refine .step .release (hsys ▸ hr.released ho (unlink_without hL hun ho hr.one)
          (hL.unlink hun).1) id id
  -- a new interface has an empty chain, one that is gone has lost its own
  | linkAdd name =>
    cases hadd : L.ipLinkAdd name s with
    | error e => exact .same hr (by rw [exec, hadd]; rfl) (by rw [exec, hadd]; rfl)
    | ok s' =>
      have hsys : (exec L s (.linkAdd name)).sys = s' := by rw [exec, hadd]; rfl
      exact .same hr (hsys ▸ (hL.ipLinkAdd hadd).1) (hsys ▸ (hL.ipLinkAdd hadd).2)
  | linkDel name =>
    cases hdel : L.ipLinkDel name s with
    | error e => exact .same hr (by rw [exec, hdel]; rfl) (by rw [exec, hdel]; rfl)
    | ok s' =>
      have hsys : (exec L s (.linkDel name)).sys = s' := by rw [exec, hdel]; rfl
      have hr' : Represented L s' (b.clear fun h => L.gone s name h.1) :=
        hr.cleared (hL.ipLinkDel hdel).2 (hL.ipLinkDel hdel).1
      exact .step .clear (hsys ▸ hr') id id

/-- A sequence of events as actions on the rows of pins. -/
theorem after_represented (hL : L.Documented) : ∀ (es : List TcxEvent) {s : Sys}
    {b : Board Hook Str}, Represented L s b → ∃ as b', Steps b as b' ∧
      Represented L (after L s es) b' ∧
      (∀ {h path}, Along L (fun s e => ¬ e.Removes L s h path) s es →
        ∀ a ∈ as, ¬ a.Removes h path) ∧
      ∀ {h}, Along L (fun s e => ¬ e.Fronts L s h) s es → ∀ a ∈ as, ¬ a.Fronts h := by
  intro es
  -- one event after the other; the actions of the board follow
  induction es with
  | nil =>
    intro s b hr
    exact ⟨[], b, .refl b, hr, fun _ a ha => absurd ha List.not_mem_nil,
      fun _ a ha => absurd ha List.not_mem_nil⟩
  | cons e es ih =>
    intro s b hr
    obtain ⟨as₁, b₁, hsteps₁, hr₁, hjust⟩ := exec_represented hL hr e
    obtain ⟨as₂, b₂, hsteps₂, hr₂, hremoves, hfronts⟩ := ih hr₁
    refine ⟨as₁ ++ as₂, b₂, hsteps₁.append hsteps₂, hr₂, fun hall a ha => ?_, fun hall a ha => ?_⟩
    · -- an action is justified by the event that it belongs to
      rcases List.mem_append.mp ha with ha | ha
      · exact fun h => hall.1 (hjust.removes ha h)
      · exact hremoves hall.2 a ha
    · rcases List.mem_append.mp ha with ha | ha
      · exact fun h => hall.1 (hjust.fronts ha h)
      · exact hfronts hall.2 a ha

/-- A pin that is not removed stays, with its link. -/
theorem exec_held (hL : L.Documented) {s : Sys} {b : Board Hook Str} (hr : Represented L s b)
    {e : TcxEvent} {h : Hook} {l : Link} {path : Str} (hl : L.Held s l path)
    (hkeep : ¬ e.Removes L s h path) : L.Held (exec L s e).sys l path := by
  have hsame : ∀ {s' : Sys}, L.pinned s' = L.pinned s → L.Held s' l path :=
    fun heq => (congrFun heq path).trans hl
  have hother : ∀ {s' : Sys} {path' : Str} {o : Option (Pinned Link)}, path' ≠ path →
      L.pinned s' = Function.update (L.pinned s) path' o → L.Held s' l path := by
    intro s' path' o hne hpinned
    rw [Libbpf.Held, hpinned, Function.update_of_ne hne.symm]
    exact hl
  -- only `rm` and `detach` touch a pin, each its own
  cases e with
  | invoke argv =>
    cases tcxAttach_did hL hr argv with
    | failed _ _ hpinned _ => exact hsame hpinned
    | attached _ _ ha =>
      refine hother (fun heq => ?_) ha.pinned
      have hfree := ha.free
      rw [heq, hl] at hfree
      cases hfree
    | detached hask _ _ _ hpinned => exact hother (fun heq => hkeep ⟨hask, heq⟩) hpinned
    | halfDetached _ _ _ _ hpinned => exact hsame hpinned
    | listed _ hcode _ _ => exact hsame (congrArg L.pinned hcode.2)
  | rm path' =>
    cases hun : L.unlink path' s with
    | error e => exact hsame (by rw [exec, hun]; rfl)
    | ok s' => exact hother hkeep (by rw [exec, hun]; exact (hL.unlink hun).1)
  | linkAdd name =>
    cases hadd : L.ipLinkAdd name s with
    | error e => exact hsame (by rw [exec, hadd]; rfl)
    | ok s' => exact hsame (by rw [exec, hadd]; exact (hL.ipLinkAdd hadd).2)
  | linkDel name =>
    cases hdel : L.ipLinkDel name s with
    | error e => exact hsame (by rw [exec, hdel]; rfl)
    | ok s' => exact hsame (by rw [exec, hdel]; exact (hL.ipLinkDel hdel).1)

theorem after_held (hL : L.Documented) {h : Hook} {l : Link} {path : Str} :
    ∀ (es : List TcxEvent) {s : Sys} {b : Board Hook Str}, Represented L s b → L.Held s l path →
      Along L (fun s e => ¬ e.Removes L s h path) s es → L.Held (after L s es) l path := by
  intro es
  induction es with
  | nil => intro s b _ hl _; exact hl
  | cons e es ih =>
    intro s b hr hl hall
    obtain ⟨_, b', -, hr', -⟩ := exec_represented hL hr e
    exact ih hr' (exec_held hL hr hl hall.1) hall.2

/-- Links whose pins are not removed keep their order. -/
theorem after_sublist (hL : L.Documented) (es : List TcxEvent) {s : Sys} {b : Board Hook Str}
    (hr : Represented L s b) {h : Hook} {ls : List Link} {paths : List Str}
    (hls : List.Forall₂ (L.Held s) ls paths) (hsub : ls.Sublist (L.chain s h))
    (hstay : ∀ path ∈ paths, Along L (fun s e => ¬ e.Removes L s h path) s es) :
    ls.Sublist (L.chain (after L s es) h) := by
  obtain ⟨as, b', hsteps, hr', hremoves, -⟩ := after_represented hL es hr
  have hls' : List.Forall₂ (L.Held (after L s es)) ls paths := by
    have hmem := (List.forall₂_and_left _ _).mpr ⟨fun path hp => hstay path hp, hls.flip⟩
    exact (hmem.imp fun path l h => after_held hL es hr h.2 h.1).flip
  refine (hr'.rows.sublist_iff hls').mpr ?_
  exact hsteps.sublist (fun a ha path hp => hremoves (hstay path hp) a ha)
    ((hr.rows.sublist_iff hls).mp hsub)

/-- The link at the head stays there while its pin is not removed and nothing is attached in
front of it. -/
theorem after_head (hL : L.Documented) (es : List TcxEvent) {s : Sys} {b : Board Hook Str}
    (hr : Represented L s b) {h : Hook} {l : Link} {path : Str} (hl : L.Held s l path)
    (hhead : (L.chain s h).head? = some l)
    (hstay : Along L (fun s e => ¬ e.Removes L s h path ∧ ¬ e.Fronts L s h) s es) :
    (L.chain (after L s es) h).head? = some l := by
  obtain ⟨as, b', hsteps, hr', hremoves, hfronts⟩ := after_represented hL es hr
  have hkeep := hstay.imp (fun _ _ h => h.1) es
  have hback := hstay.imp (fun _ _ h => h.2) es
  refine (hr'.rows.head_iff (after_held hL es hr hl hkeep)).mpr ?_
  exact hsteps.head (fun a ha => ⟨hremoves hkeep a ha, hfronts hback a ha⟩)
    ((hr.rows.head_iff hl).mp hhead)

/-- **No link is left without a pin, and a command that fails leaves everything as it was.**
Whatever the tool was called with and whatever went on around it, every link of a chain stands
at one place and has one pin; and of the next invocation, whatever its arguments are, it is
known by the exit code what it does to the chains and to the pins. -/
theorem tcx_attach_reachable (hL : L.Documented) {s : Sys} (hs : Fresh L s)
    (es : List TcxEvent) :
    (∀ h, (L.chain (after L s es) h).Nodup) ∧
      (∀ h h' l, l ∈ L.chain (after L s es) h → l ∈ L.chain (after L s es) h' → h = h') ∧
      (∀ h l, l ∈ L.chain (after L s es) h → ∃! path, L.Held (after L s es) l path) ∧
      ∀ argv, Did L argv (after L s es) (tcxAttach L argv (after L s es)) := by
  obtain ⟨as, b, -, hr, -⟩ := after_represented hL es hs.represented
  refine ⟨hr.rows.nodup, fun h h' l => hr.rows.apart, fun h l hl => ?_, tcxAttach_did hL hr⟩
  obtain ⟨path, -, hpath⟩ := hr.rows.named hl
  exact ⟨path, hpath, fun path' hpath' => hr.one hpath' hpath⟩

/-- With the dummy at the tail and the classifier at the head. -/
theorem tcx_attach_reachable_two :
    let s := after refLibbpf .fresh
      [.invoke (refAttach "tcx_dummy_ok.bpf.o" "dummy" "after"),
        .invoke (refAttach "ts_classifier.bpf.o" "clsf" "before")]
    (∀ h, (refLibbpf.chain s h).Nodup) ∧
      (∀ h h' l, l ∈ refLibbpf.chain s h → l ∈ refLibbpf.chain s h' → h = h') ∧
      (∀ h l, l ∈ refLibbpf.chain s h → ∃! path, refLibbpf.Held s l path) ∧
      ∀ argv, Did refLibbpf argv s (tcxAttach refLibbpf argv s) :=
  tcx_attach_reachable refLibbpf_documented fresh_refLibbpf _

/-- **A program attached before the others stays in front of them**, until it is detached, its
interface is deleted or another is attached before it.  All the time links that stay keep their
order. -/
theorem tcx_attach_order (hL : L.Documented) {s : Sys} (hs : Fresh L s) (es es' : List TcxEvent)
    {argv : List Str} {h : Hook} (hask : wantsAttach argv) (hbefore : wantsBefore argv)
    (hifindex : L.ifNametoindex (after L s es) (argv.getD 2 []) = h.1)
    (hdir : parseDir argv[5]? = some h.2)
    (hcode : (tcxAttach L argv (after L s es)).code = 0)
    (hlater : Along L (fun s e => ¬ e.Removes L s h (argv.getD 4 []) ∧ ¬ e.Fronts L s h)
      (after L s (es ++ [.invoke argv])) es') :
    (∃ l obj prog, (L.chain (after L s (es ++ .invoke argv :: es')) h).head? = some l ∧
        L.Held (after L s (es ++ .invoke argv :: es')) l (argv.getD 4 []) ∧
        L.openFile (after L s es) (argv.getD 3 []) = .ok obj ∧ L.nextProgram obj = some prog ∧
        L.setExpectedAttachType (L.setType prog) h.2 = .ok (L.prog l)) ∧
      ∀ ls paths, List.Forall₂ (L.Held (after L s es)) ls paths →
        ls.Sublist (L.chain (after L s es) h) →
        (∀ path ∈ paths, Along L (fun s e => ¬ e.Removes L s h path) (after L s es)
          (.invoke argv :: es')) →
        ls.Sublist (L.chain (after L s (es ++ .invoke argv :: es')) h) := by
  obtain ⟨as, b, -, hr, -⟩ := after_represented hL es hs.represented
  -- from the time of the call
  have hafter : ∀ es₂, after L s (es ++ es₂) = after L (after L s es) es₂ :=
    fun es₂ => List.foldl_append
  rw [hafter] at hlater
  rw [hafter]
  constructor
  · obtain ⟨dir, l, ha⟩ := (tcxAttach_did hL hr argv).attached_of hask hcode
    obtain ⟨ifindex, dir'⟩ := h
    obtain rfl : dir = dir' := Option.some.inj (ha.parsed.symm.trans hdir)
    obtain rfl := hifindex
    obtain ⟨hx, hr'⟩ := hr.attached ha
    obtain ⟨obj, prog, hobj, hprog, hset⟩ := ha.program
    have hl : L.Held (tcxAttach L argv (after L s es)).sys l (argv.getD 4 []) := by
      rw [Libbpf.Held, ha.pinned, Function.update_self]
    -- right behind the call the link is at the head
    have hhead : (L.chain (tcxAttach L argv (after L s es)).sys
        (L.ifNametoindex (after L s es) (argv.getD 2 []), dir)).head? = some l := by
      rw [ha.chain, Function.update_self, hbefore]
      rfl
    -- and it stays there and pinned
    exact ⟨l, obj, prog, after_head hL es' hr' hl hhead hlater,
      after_held hL es' hr' hl (hlater.imp (fun _ _ h => h.1) es'), hobj, hprog, hset⟩
  · exact fun ls paths hls hsub hstay => after_sublist hL _ hr hls hsub hstay

/-- The classifier before the dummy: it is at the head after the dummy has gone and another
has come to the tail. -/
theorem tcx_attach_order_classifier :
    ∃ l obj prog,
      let s := after refLibbpf .fresh
        ([.invoke (refAttach "tcx_dummy_ok.bpf.o" "dummy" "after")] ++
          .invoke (refAttach "ts_classifier.bpf.o" "clsf" "before") ::
          [.invoke (refAttach "tcx_dummy_ok.bpf.o" "dummy2" "after"), .rm "unrelated".toList,
            .invoke (refDetach "dummy")])
      (refLibbpf.chain s (1, .egress)).head? = some l ∧
        refLibbpf.Held s l "clsf".toList ∧
        refLibbpf.openFile .fresh "ts_classifier.bpf.o".toList = .ok obj ∧
        refLibbpf.nextProgram obj = some prog ∧
        refLibbpf.setExpectedAttachType (refLibbpf.setType prog) .egress
          = .ok (refLibbpf.prog l) :=
  (tcx_attach_order refLibbpf_documented fresh_refLibbpf
    [.invoke (refAttach "tcx_dummy_ok.bpf.o" "dummy" "after")]
    [.invoke (refAttach "tcx_dummy_ok.bpf.o" "dummy2" "after"), .rm "unrelated".toList,
      .invoke (refDetach "dummy")] (h := (1, .egress))
    (show wantsAttach (refAttach "ts_classifier.bpf.o" "clsf" "before") by decide)
    (by decide) (by decide) (by decide) (by decide)
    ⟨⟨fun h => absurd h.1 (by decide), fun h => absurd h.2.2.2.2 (by decide)⟩,
      ⟨show "unrelated".toList ≠ "clsf".toList by decide, id⟩,
      ⟨fun h => absurd h.2 (by decide), fun h => absurd h.1 (by decide)⟩, trivial⟩).1

end Runs

end TsPacket

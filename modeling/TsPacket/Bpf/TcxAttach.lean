import TsPacket.Lib.HookBoard
import TsPacket.Lib.PyText
import Mathlib.Data.Nat.Notation

/-!
# Attaching programs to a tcx chain

`bpf/tools/tcx_attach.c` attaches the program of an object file to the head or the tail of the
tcx chain of an interface, and pins the link; it is detached through its pin.  The kernel and
libbpf are a parameter: of every call only what it does to the chains and to the pins is known,
and any call may fail (`Libbpf.Documented`).  Around the tool interfaces are added and deleted,
and pins are removed by hand, as the tests do when they clean up.

## Main definitions

* `Libbpf`, `Libbpf.Documented` — the calls, and what they do.
* `tcxAttach` — the tool, with its exit code and what it prints.
* `exec`, `after` — the tool and what goes on around it, once and several times.
* `Did` — what an invocation did, by its exit code.

## Main results

* `doAttach_did`, `doDetach_did`, `doQuery_did` — **each command does what its exit code says**,
  where every link has one pin.
-/

namespace TsPacket

open PyText HookBoard

/-- `BPF_TCX_INGRESS` and `BPF_TCX_EGRESS`. -/
inductive TcxDir
  | ingress
  | egress
  deriving DecidableEq

/-- The name of a direction on the command line. -/
def TcxDir.text : TcxDir → Str
  | .ingress => "ingress".toList
  | .egress => "egress".toList

/-- An interface, by its index, and a direction. -/
abbrev Hook := ℕ × TcxDir

/-- What a path in bpffs stands for. -/
inductive Pinned (Link : Type)
  | link (l : Link)
  | other

/-- The kernel and libbpf.  A call that fails gives the text of `errno`. -/
structure Libbpf (Sys Obj Prog Link : Type) where
  /-- The links at a hook, in the order in which their programs run. -/
  chain : Sys → Hook → List Link
  pinned : Sys → Str → Option (Pinned Link)
  /-- The program a link runs, and where a program is to be attached. -/
  prog : Link → Prog
  attachType : Prog → Option TcxDir
  programName : Prog → Str
  progId : Link → ℕ
  linkId : Link → ℕ
  /-- 0 if there is none of that name. -/
  ifNametoindex : Sys → Str → ℕ
  openFile : Sys → Str → Except Str Obj
  nextProgram : Obj → Option Prog
  setType : Prog → Prog
  setExpectedAttachType : Prog → TcxDir → Except Str Prog
  load : Obj → Prog → Sys → Except Str Sys
  attachTcx : Prog → ℕ → Bool → Sys → Except Str (Link × Sys)
  pin : Link → Str → Sys → Except Str Sys
  destroy : Link → Sys → Sys
  objGet : Sys → Str → Except Str (Pinned Link)
  linkDetach : Pinned Link → Sys → Except Str Sys
  unlink : Str → Sys → Except Str Sys
  /-- Program ids and link ids of a chain. -/
  progQuery : Sys → Hook → Except Str (List (ℕ × ℕ))
  progInfo : Sys → ℕ → Option Str
  ipLinkAdd : Str → Sys → Except Str Sys
  ipLinkDel : Str → Sys → Except Str Sys
  /-- The interfaces that go with one, itself and its peer. -/
  gone : Sys → Str → ℕ → Bool

variable {Sys Obj Prog Link : Type}

/-- The link is pinned there. -/
def Libbpf.Held (L : Libbpf Sys Obj Prog Link) (s : Sys) (l : Link) (path : Str) : Prop :=
  L.pinned s path = some (.link l)

/-- What the calls do when they succeed.  Pins are known by the text of their paths, so a pin
has one spelling: no path says in another way where something is pinned. -/
structure Libbpf.Documented [DecidableEq Link] (L : Libbpf Sys Obj Prog Link) : Prop where
  setExpectedAttachType : ∀ {p dir p'}, L.setExpectedAttachType p dir = .ok p' →
    L.attachType p' = some dir
  load : ∀ {obj p s s'}, L.load obj p s = .ok s' →
    L.chain s' = L.chain s ∧ L.pinned s' = L.pinned s
  /-- The new link goes to the head or the tail. -/
  attachTcx : ∀ {p ifindex before s l s'}, L.attachTcx p ifindex before s = .ok (l, s') →
    (∀ h, l ∉ L.chain s h) ∧ (∀ path, ¬ L.Held s l path) ∧ L.prog l = p ∧
      L.pinned s' = L.pinned s ∧ ∃ dir, L.attachType p = some dir ∧
        L.chain s' = Function.update (L.chain s) (ifindex, dir)
          (Board.place before l (L.chain s (ifindex, dir)))
  /-- Nothing is pinned where something is. -/
  pin : ∀ {l path s s'}, L.pin l path s = .ok s' → L.pinned s path = none ∧
    L.pinned s' = Function.update (L.pinned s) path (some (.link l)) ∧ L.chain s' = L.chain s
  destroy : ∀ {l s}, L.pinned (L.destroy l s) = L.pinned s ∧
    ∀ h, L.chain (L.destroy l s) h = (L.chain s h).filter fun l' => l' ≠ l
  objGet : ∀ {s path o}, L.objGet s path = .ok o → L.pinned s path = some o
  linkDetach : ∀ {o s s'}, L.linkDetach o s = .ok s' → L.pinned s' = L.pinned s ∧
    ∃ l, o = .link l ∧ ∀ h, L.chain s' h = (L.chain s h).filter fun l' => l' ≠ l
  /-- A link without a pin is gone, once nobody has it open. -/
  unlink : ∀ {path s s'}, L.unlink path s = .ok s' →
    L.pinned s' = Function.update (L.pinned s) path none ∧
      (∀ l, L.Held s l path → (∀ q, L.Held s l q → q = path) →
        ∀ h, L.chain s' h = (L.chain s h).filter fun l' => l' ≠ l) ∧
      ((∀ l, ¬ L.Held s l path) → L.chain s' = L.chain s)
  progQuery : ∀ {s h ids}, L.progQuery s h = .ok ids →
    ids = (L.chain s h).map fun l => (L.progId l, L.linkId l)
  ipLinkAdd : ∀ {name s s'}, L.ipLinkAdd name s = .ok s' →
    L.chain s' = L.chain s ∧ L.pinned s' = L.pinned s
  ipLinkDel : ∀ {name s s'}, L.ipLinkDel name s = .ok s' → L.pinned s' = L.pinned s ∧
    ∀ h, L.chain s' h = (L.chain s h).filter fun _ => !L.gone s name h.1

/-! ### The tool -/

/-- An exit code, and the lines printed to the two streams. -/
structure ToolExit (Sys : Type) where
  code : ℕ
  sys : Sys
  out : List Str := []
  err : List Str := []

/-- The lines of `usage`. -/
def usage (argv0 : Str) : List Str :=
  ["usage:".toList,
    "  ".toList ++ argv0 ++
      " attach <ifname> <obj.bpf.o> <pin-path> [egress|ingress] [before|after]".toList,
    "  ".toList ++ argv0 ++ " detach <pin-path>".toList,
    "  ".toList ++ argv0 ++ " query  <ifname> [egress|ingress]".toList]

/-- `parse_dir`; without an argument the direction is egress. -/
def parseDir : Option Str → Option TcxDir
  | none => some .egress
  | some s =>
    if s = "egress".toList then some .egress
    else if s = "ingress".toList then some .ingress else none

/-- The message for an argument that is no direction. -/
def unknownDirection (s : Option Str) : Str := "unknown direction: ".toList ++ s.getD []

/-- The message for an interface that is not there. -/
def noSuchInterface (ifname : Str) : Str := "no such interface: ".toList ++ ifname

/-- `%-16s`. -/
def padded (s : Str) : Str := s ++ List.replicate (16 - s.length) ' '

/-- Whatever stands there, only `after` is not `before`. -/
def wantsBefore (argv : List Str) : Bool := !(argv[6]? == some "after".toList)

/-- The place in the chain, in a message. -/
def placeText (before : Bool) : Str := if before then "before".toList else "after".toList

section Tool

variable (L : Libbpf Sys Obj Prog Link)

/-- `do_attach`: the first call that fails ends it. -/
def doAttach (argv : List Str) (s : Sys) : ToolExit Sys :=
  let ifname := argv.getD 2 []
  let objpath := argv.getD 3 []
  let pin := argv.getD 4 []
  -- an unknown direction ends the tool before anything else is looked at
  match parseDir argv[5]? with
  | none => { code := 2, sys := s, err := [unknownDirection argv[5]?] }
  | some dir =>
    let before := wantsBefore argv
    let ifindex := L.ifNametoindex s ifname
    if ifindex = 0 then { code := 1, sys := s, err := [noSuchInterface ifname] }
    else match L.openFile s objpath with
      | .error e =>
        { code := 1, sys := s, err := ["open ".toList ++ objpath ++ ": ".toList ++ e] }
      | .ok obj => match L.nextProgram obj with
        | none => { code := 1, sys := s, err := ["no program in ".toList ++ objpath] }
        | some prog => match L.setExpectedAttachType (L.setType prog) dir with
          | .error e =>
            { code := 1, sys := s, err := ["set_expected_attach_type failed: ".toList ++ e] }
          | .ok prog => match L.load obj prog s with
            | .error e =>
              { code := 1, sys := s
                err := ["load ".toList ++ objpath ++ " failed (verifier?): ".toList ++ e] }
            | .ok s => match L.attachTcx prog ifindex before s with
              | .error e =>
                { code := 1, sys := s
                  err := ["attach_tcx(".toList ++ ifname ++ ", ".toList ++ placeText before ++
                    ") failed: ".toList ++ e ++ " (kernel >= 6.6 필요)".toList] }
              -- a link that cannot be pinned is destroyed
              | .ok (link, s) => match L.pin link pin s with
                | .error e =>
                  { code := 1, sys := L.destroy link s
                    err := ["pin ".toList ++ pin ++ " failed: ".toList ++ e] }
                | .ok s =>
                  { code := 0, sys := s
                    out := ["attached ".toList ++ L.programName prog ++ " (".toList ++ objpath ++
                      ") to ".toList ++ ifname ++ " ".toList ++ dir.text ++ " at ".toList ++
                      (if before then "head".toList else "tail".toList) ++
                      " of chain, pinned at ".toList ++ pin] }

/-- A link that cannot be detached is reported, and its pin is removed all the same. -/
def doDetach (pin : Str) (s : Sys) : ToolExit Sys :=
  match L.objGet s pin with
  | .error e => { code := 1, sys := s, err := ["open pin ".toList ++ pin ++ ": ".toList ++ e] }
  | .ok fd =>
    let detached : Sys × List Str := match L.linkDetach fd s with
      | .error e => (s, ["bpf_link_detach: ".toList ++ e])
      | .ok s => (s, [])
    match L.unlink pin detached.1 with
    | .error e =>
      { code := 1, sys := detached.1
        err := detached.2 ++ ["unlink ".toList ++ pin ++ ": ".toList ++ e] }
    | .ok s => { code := 0, sys := s, out := ["detached ".toList ++ pin], err := detached.2 }

/-- The line of the `i`-th program of a chain. -/
def queryLine (s : Sys) (i : ℕ) (ids : ℕ × ℕ) : Str :=
  "  [".toList ++ strOf i ++ "] prog id ".toList ++ strOf ids.1 ++
    match L.progInfo s ids.1 with
    | none => " (info unavailable)".toList
    | some name => "  name ".toList ++ padded name ++ " link id ".toList ++ strOf ids.2

/-- The first line of a chain. -/
def queryHead (ifname : Str) (dir : TcxDir) (n : ℕ) : Str :=
  ifname ++ " ".toList ++ dir.text ++ " tcx chain: ".toList ++ strOf n ++ " program(s)".toList

/-- `do_query`. -/
def doQuery (argv : List Str) (s : Sys) : ToolExit Sys :=
  let ifname := argv.getD 2 []
  match parseDir argv[3]? with
  | none => { code := 2, sys := s, err := [unknownDirection argv[3]?] }
  | some dir =>
    let ifindex := L.ifNametoindex s ifname
    if ifindex = 0 then { code := 1, sys := s, err := [noSuchInterface ifname] }
    else match L.progQuery s (ifindex, dir) with
      | .error e => { code := 1, sys := s, err := ["query failed: ".toList ++ e] }
      | .ok ids =>
        { code := 0, sys := s
          out := queryHead ifname dir ids.length :: ids.mapIdx (queryLine L s) }

/-- The arguments are those of `attach`. -/
def wantsAttach (argv : List Str) : Bool := 5 ≤ argv.length && argv[1]? == some "attach".toList

/-- The arguments are those of `detach`. -/
def wantsDetach (argv : List Str) : Bool := argv.length == 3 && argv[1]? == some "detach".toList

/-- The arguments are those of `query`. -/
def wantsQuery (argv : List Str) : Bool := 3 ≤ argv.length && argv[1]? == some "query".toList

/-- `main`. -/
def tcxAttach (argv : List Str) (s : Sys) : ToolExit Sys :=
  if wantsAttach argv then doAttach L argv s
  else if wantsDetach argv then doDetach L (argv.getD 2 []) s
  else if wantsQuery argv then doQuery L argv s
  else { code := 2, sys := s, err := usage (argv.getD 0 "(null)".toList) }

/-! ### Around the tool -/

/-- The tool is called; `rm -f`; `ip link add`, `ip link del`. -/
inductive TcxEvent
  | invoke (argv : List Str)
  | rm (path : Str)
  | linkAdd (name : Str)
  | linkDel (name : Str)

/-- A command whose failure is ignored. -/
def orTrue (r : Except Str Sys) (s : Sys) : ToolExit Sys :=
  match r with
  | .error _ => { code := 0, sys := s }
  | .ok s => { code := 0, sys := s }

/-- What an event leaves. -/
def exec (s : Sys) : TcxEvent → ToolExit Sys
  | .invoke argv => tcxAttach L argv s
  | .rm path => orTrue (L.unlink path s) s
  | .linkAdd name => orTrue (L.ipLinkAdd name s) s
  | .linkDel name => orTrue (L.ipLinkDel name s) s

/-- The system after a sequence of events. -/
def after (s : Sys) (es : List TcxEvent) : Sys := es.foldl (fun s e => (exec L s e).sys) s

end Tool

/-! ### What a command does -/

variable {L : Libbpf Sys Obj Prog Link}

section Commands

variable [DecidableEq Link]

/-- Whether a link stays when what was pinned goes. -/
def stays : Pinned Link → Link → Bool
  | .link l, l' => l' ≠ l
  | .other, _ => true

/-- A row without what was pinned. -/
def without (o : Pinned Link) (row : List Link) : List Link := row.filter (stays o)

/-- A program was attached: a new link to the first program of the object file, at the end of
the chain that was asked for, with the pin. -/
structure Attached (L : Libbpf Sys Obj Prog Link) (argv : List Str) (dir : TcxDir) (l : Link)
    (s s' : Sys) : Prop where
  parsed : parseDir argv[5]? = some dir
  program : ∃ obj prog, L.openFile s (argv.getD 3 []) = .ok obj ∧ L.nextProgram obj = some prog ∧
    L.setExpectedAttachType (L.setType prog) dir = .ok (L.prog l)
  fresh : (∀ h, l ∉ L.chain s h) ∧ ∀ path, ¬ L.Held s l path
  free : L.pinned s (argv.getD 4 []) = none
  pinned : L.pinned s' = Function.update (L.pinned s) (argv.getD 4 []) (some (.link l))
  chain : L.chain s' =
    let h := (L.ifNametoindex s (argv.getD 2 []), dir)
    Function.update (L.chain s) h (Board.place (wantsBefore argv) l (L.chain s h))

/-- What an invocation does, by its exit code. -/
inductive Did (L : Libbpf Sys Obj Prog Link) (argv : List Str) (s : Sys) (r : ToolExit Sys) :
    Prop
  | failed (code : r.code = 1 ∨ r.code = 2) (chain : L.chain r.sys = L.chain s)
    (pinned : L.pinned r.sys = L.pinned s) (out : r.out = [] ∧ r.err ≠ [])
  | attached {dir : TcxDir} {l : Link} (asked : wantsAttach argv) (code : r.code = 0)
    (attached : Attached L argv dir l s r.sys)
  | detached {o : Pinned Link} (asked : wantsDetach argv) (code : r.code = 0)
    (held : L.pinned s (argv.getD 2 []) = some o)
    (chain : ∀ h, L.chain r.sys h = without o (L.chain s h))
    (pinned : L.pinned r.sys = Function.update (L.pinned s) (argv.getD 2 []) none)
  /-- The link was detached, but its pin could not be removed. -/
  | halfDetached {l : Link} (asked : wantsDetach argv) (code : r.code = 1 ∧ r.err ≠ [])
    (held : L.Held s l (argv.getD 2 []))
    (chain : ∀ h, L.chain r.sys h = without (.link l) (L.chain s h))
    (pinned : L.pinned r.sys = L.pinned s)
  | listed {dir : TcxDir} (asked : wantsQuery argv) (code : r.code = 0 ∧ r.sys = s)
    (parsed : parseDir argv[3]? = some dir)
    (out : r.out =
      let links := L.chain s (L.ifNametoindex s (argv.getD 2 []), dir)
      queryHead (argv.getD 2 []) dir links.length ::
        links.mapIdx fun i l => queryLine L s i (L.progId l, L.linkId l))

/-- A command that fails prints a line and leaves chains and pins as they are. -/
theorem Did.refused {argv : List Str} {s s' : Sys} {code : ℕ} {line : Str} {lines : List Str}
    (hcode : code = 1 ∨ code = 2) (hchain : L.chain s' = L.chain s)
    (hpinned : L.pinned s' = L.pinned s) :
    Did L argv s { code := code, sys := s', err := line :: lines } :=
  .failed hcode hchain hpinned ⟨rfl, List.cons_ne_nil line lines⟩

theorem Did.attached_of {argv : List Str} {s : Sys} {r : ToolExit Sys} (hdid : Did L argv s r)
    (hask : wantsAttach argv) (hcode : r.code = 0) : ∃ dir l, Attached L argv dir l s r.sys := by
  rw [wantsAttach, Bool.and_eq_true, decide_eq_true_iff, beq_iff_eq] at hask
  cases hdid with
  | failed hfail => rcases hfail with h | h <;> exact absurd (hcode.symm.trans h) (by decide)
  | attached _ _ ha => exact ⟨_, _, ha⟩
  | detached hdet =>
    rw [wantsDetach, Bool.and_eq_true, beq_iff_eq] at hdet
    omega
  | halfDetached _ h => exact absurd (hcode.symm.trans h.1) (by decide)
  | listed hquery =>
    rw [wantsQuery, Bool.and_eq_true, beq_iff_eq, hask.2] at hquery
    exact absurd hquery.2 (by decide)

theorem filter_place {before : Bool} {l : Link} {row : List Link} (hl : l ∉ row) :
    (Board.place before l row).filter (fun l' => l' ≠ l) = row := by
  have hrow : row.filter (fun l' => l' ≠ l) = row :=
    List.filter_eq_self.mpr fun l' hl' => decide_eq_true fun heq => hl (heq ▸ hl')
  cases before with
  | true => simpa [Board.place] using hrow
  | false => simpa [Board.place] using hrow

/-- Of `attach`: all or nothing. -/
theorem doAttach_did (hL : L.Documented) {argv : List Str} (hask : wantsAttach argv) (s : Sys) :
    Did L argv s (doAttach L argv s) := by
  rw [doAttach]
  cases hdir : parseDir argv[5]? with
  | none => exact .refused (Or.inr rfl) rfl rfl
  | some dir =>
    dsimp only
    split
    · exact .refused (Or.inl rfl) rfl rfl
    cases hobj : L.openFile s (argv.getD 3 []) with
    | error e => exact .refused (Or.inl rfl) rfl rfl
    | ok obj =>
    dsimp only
    cases hprog : L.nextProgram obj with
    | none => exact .refused (Or.inl rfl) rfl rfl
    | some prog =>
    dsimp only
    cases hset : L.setExpectedAttachType (L.setType prog) dir with
    | error e => exact .refused (Or.inl rfl) rfl rfl
    | ok prog' =>
    dsimp only
    cases hload : L.load obj prog' s with
    | error e => exact .refused (Or.inl rfl) rfl rfl
    | ok s₁ =>
    obtain ⟨hchain₁, hpinned₁⟩ := hL.load hload
    dsimp only
    cases hatt : L.attachTcx prog' (L.ifNametoindex s (argv.getD 2 [])) (wantsBefore argv) s₁ with
    | error e => exact .refused (Or.inl rfl) hchain₁ hpinned₁
    | ok link =>
    obtain ⟨l, s₂⟩ := link
    obtain ⟨hnew, hunpinned, hl, hpinned₂, dir', hdir', hchain₂⟩ := hL.attachTcx hatt
    obtain rfl : dir = dir' :=
      Option.some.inj ((hL.setExpectedAttachType hset).symm.trans hdir')
    rw [hchain₁] at hnew hchain₂
    dsimp only
    cases hpin : L.pin l (argv.getD 4 []) s₂ with
    | error e =>
      -- the link that could not be pinned is destroyed
      refine .refused (Or.inl rfl) (funext fun h => ?_) ?_
      · rw [hL.destroy.2, hchain₂]
        by_cases hh : h = (L.ifNametoindex s (argv.getD 2 []), dir)
        · rw [hh, Function.update_self, filter_place (hnew _)]
        · rw [Function.update_of_ne hh]
          exact List.filter_eq_self.mpr fun l' hl' => decide_eq_true fun heq => hnew h (heq ▸ hl')
      · rw [hL.destroy.1, hpinned₂, hpinned₁]
    | ok s₃ =>
      obtain ⟨hfree, hpinned₃, hchain₃⟩ := hL.pin hpin
      rw [hpinned₂, hpinned₁] at hfree hpinned₃
      refine .attached hask rfl ⟨hdir, ⟨obj, prog, hobj, hprog, hl ▸ hset⟩,
        ⟨hnew, fun path h => hunpinned path ?_⟩, hfree, hpinned₃, hchain₃.trans hchain₂⟩
      rw [Libbpf.Held, hpinned₁]
      exact h

theorem without_without (l : Link) (row : List Link) :
    without (.link l) (row.filter fun l' => l' ≠ l) = without (.link l) row := by
  rw [without, without, List.filter_filter]
  exact congrArg (row.filter ·) (funext fun l' => Bool.and_self _)

/-- What was pinned goes with its pin, if it had no other. -/
theorem unlink_without (hL : L.Documented) {path : Str} {s s' : Sys} {o : Pinned Link}
    (hun : L.unlink path s = .ok s') (ho : L.pinned s path = some o)
    (hone : ∀ {l p q}, L.Held s l p → L.Held s l q → p = q) (h : Hook) :
    L.chain s' h = without o (L.chain s h) := by
  obtain ⟨-, hlast, hother⟩ := hL.unlink hun
  cases o with
  | link l => exact hlast l ho (fun q hq => hone hq ho) h
  | other =>
    rw [hother fun l hl => by rw [Libbpf.Held, ho] at hl; cases hl]
    exact (List.filter_true _).symm

/-- Of `detach`, for a link that has one pin. -/
theorem doDetach_did (hL : L.Documented) {argv : List Str} (hask : wantsDetach argv) {s : Sys}
    (hone : ∀ {l p q}, L.Held s l p → L.Held s l q → p = q) :
    Did L argv s (doDetach L (argv.getD 2 []) s) := by
  rw [doDetach]
  cases hget : L.objGet s (argv.getD 2 []) with
  -- nothing is pinned there
  | error e => exact .refused (Or.inl rfl) rfl rfl
  | ok o =>
    have ho := hL.objGet hget
    dsimp only
    cases hdet : L.linkDetach o s with
    | error e =>
      dsimp only
      -- the detach failed: the link goes with its pin, or stays with it
      cases hun : L.unlink (argv.getD 2 []) s with
      | error e => exact .refused (Or.inl rfl) rfl rfl
      | ok s' =>
        exact .detached hask rfl ho (unlink_without hL hun ho hone) (hL.unlink hun).1
    | ok s₁ =>
      obtain ⟨hpinned₁, l, rfl, hchain₁⟩ := hL.linkDetach hdet
      dsimp only
      -- the detach went through: a pin that stays is the half-done case
      cases hun : L.unlink (argv.getD 2 []) s₁ with
      | error e => exact .halfDetached hask ⟨rfl, List.cons_ne_nil _ _⟩ ho hchain₁ hpinned₁
      | ok s' =>
        have hheld : ∀ {l q}, L.Held s₁ l q ↔ L.Held s l q := by
          intro l q
          rw [Libbpf.Held, Libbpf.Held, hpinned₁]
        refine .detached hask rfl ho (fun h => ?_) ((hL.unlink hun).1.trans (by rw [hpinned₁]))
        rw [unlink_without hL hun (hheld.mpr ho)
          (fun hp hq => hone (hheld.mp hp) (hheld.mp hq)) h, hchain₁]
        exact without_without l _

/-- Of `query`: it lists the chain. -/
theorem doQuery_did (hL : L.Documented) {argv : List Str} (hask : wantsQuery argv) (s : Sys) :
    Did L argv s (doQuery L argv s) := by
  rw [doQuery]
  cases hdir : parseDir argv[3]? with
  | none => exact .refused (Or.inr rfl) rfl rfl
  | some dir =>
    dsimp only
    split
    · exact .refused (Or.inl rfl) rfl rfl
    cases hids : L.progQuery s (L.ifNametoindex s (argv.getD 2 []), dir) with
    | error e => exact .refused (Or.inl rfl) rfl rfl
    | ok ids =>
      refine .listed hask ⟨rfl, rfl⟩ hdir ?_
      rw [hL.progQuery hids]
      simp only [List.length_map, List.cons.injEq, true_and, List.mapIdx_eq_iff]
      intro i
      simp only [List.getElem?_mapIdx, List.getElem?_map, Option.map_map, Function.comp_def]

end Commands

end TsPacket

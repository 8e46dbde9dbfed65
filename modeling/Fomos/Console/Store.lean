import Mathlib
import Fomos.Console.Keys
import Fomos.Input.Pipeline
import Fomos.Library.Utf8

/-!
# The console

A call of the console draws its title and its history, and then takes the key events recorded
since its last call. A key changes the last atom of the history, which is the user's, and Enter
executes it, as a command or as fomoscript, and opens the next prompt.
-/
namespace Fomos

/-- The crate `fomoscript`, with contexts `C`, values `N` and expressions `E`. `eval` also says
whether the native function set as `quit` was called. What is `pending` in a context is the code
that was inserted and is not parsed yet. -/
structure Fomoscript (C N E : Type) where
  new : C
  insertCode : List Char → C → C
  parseNextExpr : C → Option E × C
  eval : E → C → N × C × Bool
  setVarAbsolute : String → N → C → C
  debug : N → List Char
  unit : N
  num : ℕ → N
  quit : N
  draw : N
  pending : C → ℕ
  pending_lt : ∀ {c c' parent}, parseNextExpr c = (some parent, c') →
    pending (eval parent c').2.1 < pending c

/-- The crate `noto_sans_mono_bitmap` as the console configures it, by the characters that
`get_raster` finds: basic latin, and of the others at most the specials. -/
structure Font where
  hasRaster : Char → Bool
  basicLatin : ∀ c : Char, 0x20 ≤ c.toNat → c.toNat ≤ 0x7E → hasRaster c = true
  nothingElse : ∀ c : Char, hasRaster c = true →
    (0x20 ≤ c.toNat ∧ c.toNat ≤ 0x7E) ∨ (0xFFF0 ≤ c.toNat ∧ c.toNat ≤ 0xFFFF)

/-- A fomoscript whose programs are all empty. -/
def Fomoscript.silent : Fomoscript Unit Unit Unit where
  new := ()
  insertCode _ _ := ()
  parseNextExpr _ := (none, ())
  eval _ _ := ((), (), false)
  setVarAbsolute _ _ _ := ()
  debug _ := "Unit".toList
  unit := ()
  num _ := ()
  quit := ()
  draw := ()
  pending _ := 0
  pending_lt := by simp

/-- Basic latin alone. -/
def Font.latin : Font where
  hasRaster c := 0x20 ≤ c.toNat && c.toNat ≤ 0x7E
  basicLatin c hlow hhigh := by simp [hlow, hhigh]
  nothingElse c h := .inl (by simpa using h)

namespace Console

inductive Mode
  | shell
  | fomoscriptREPL
  deriving DecidableEq, Repr

structure Atom where
  isUser : Bool
  text : List Char
  deriving DecidableEq, Repr

structure InputEvent where
  trigger : Bool
  key : Key
  deriving DecidableEq, Repr

/-- The part of `Input` that the console reads events from. -/
structure Input where
  historyLastIndex : ℕ
  historyRing : ℕ → InputEvent

/-- The part of `Store` that key events change. The atoms of the history stand newest first. -/
structure Terminal (C : Type) where
  consoleHistory : List Atom
  loc : Local
  shift : Bool
  altg : Bool
  scriptCtx : C
  mode : Mode

/-- `Store`, but for the window and its blurred background; `step` does not wrap. -/
structure Store (C : Type) where
  step : ℕ
  inputHistoryLastIndex : ℕ
  active : Bool
  terminal : Terminal C

/-- What the kernel passes to a call. `click` is what the mouse does to the window: it may make it
active, or inactive. -/
structure Context where
  startTime : ℕ
  pid : ℕ
  input : Input
  click : Option Bool

/-- A ring whose first events are presses of these keys. -/
def Context.pressing (keys : List Key) (click : Option Bool) : Context where
  startTime := 0
  pid := 0
  input := ⟨keys.length, fun i => ⟨true, keys.getD (i - 1) .reserved⟩⟩
  click := click

/-- How one turn of `'new_inputs` ends. -/
inductive Turn (C : Type)
  | next (t : Terminal C)
  | breakNewInputs (t : Terminal C)
  | reset
  | panic

def Turn.terminal? {C : Type} : Turn C → Option (Terminal C)
  | next t => some t
  | breakNewInputs t => some t
  | reset => none
  | panic => none

def Mode.prompt : Mode → List Char
  | .shell => ['>']
  | .fomoscriptREPL => ['f', 'o', 's', '>']

/-- `Display` of a number. -/
def decimal (n : ℕ) : List Char := Nat.toDigits 10 n

namespace Terminal
variable {C N E : Type}

def push (a : Atom) (t : Terminal C) : Terminal C :=
  { t with consoleHistory := a :: t.consoleHistory }

def say (text : List Char) (t : Terminal C) : Terminal C := t.push ⟨false, text⟩

def openPrompt (t : Terminal C) : Terminal C := t.push ⟨true, t.mode.prompt⟩

/-- A native `quit` that was called has set the mode. -/
def afterEval (c : C) (quit : Bool) (t : Terminal C) : Terminal C :=
  { t with scriptCtx := c, mode := if quit then .shell else t.mode }

variable (fos : Fomoscript C N E) (startTime pid : ℕ)

def evalText (res : N) : List Char := "eval: ".toList ++ fos.debug res

/-- A line of the REPL: its first expression is evaluated. -/
def runLine (code : List Char) (c : C) : Option N × C × Bool :=
  match fos.parseNextExpr (fos.insertCode code c) with
  | (none, c) => (none, c, false)
  | (some parent, c) =>
    match fos.eval parent c with
    | (res, c, quit) => (some res, c, quit)

def evalLine (text : List Char) (t : Terminal C) : Option (Terminal C) :=
  (Utf8.sliceFrom 4 text).map fun code =>
    match runLine fos code t.scriptCtx with
    | (none, c, quit) => t.afterEval c quit
    | (some res, c, quit) => (t.afterEval c quit).say (evalText fos res)

/-- `while let Ok(parent) = parse_next_expr()` -/
def evalAll (c : C) (res : N) (quit : Bool) : N × C × Bool :=
  match parsed : fos.parseNextExpr c with
  | (none, c) => (res, c, quit)
  | (some parent, c') =>
    have := fos.pending_lt parsed
    let out := fos.eval parent c'
    evalAll out.2.1 out.1 (quit || out.2.2)
  termination_by fos.pending c

/-- `>eval ..`: all of the script is evaluated. -/
def runScript (code : List Char) (c : C) : N × C × Bool :=
  let c := fos.setVarAbsolute "draw" fos.draw
    (fos.setVarAbsolute "pid" (fos.num pid)
      (fos.setVarAbsolute "time" (fos.num startTime) (fos.insertCode code c)))
  evalAll fos c fos.unit false

def evalScript (text : List Char) (t : Terminal C) : Option (Terminal C) :=
  (Utf8.sliceFrom 5 text).map fun code =>
    match runScript fos startTime pid code t.scriptCtx with
    | (res, c, quit) => (t.afterEval c quit).say (evalText fos res)

def helpText : List Char :=
  ["commands:\n",
    "    - pid       Display the app pid\n",
    "    - time      Display the kernel time\n",
    "    - reset     Clear the app memory\n",
    "    - lang ..   Set key locale (en,fr)\n",
    "    - eval ..   Eval fomoscript\n",
    "    - repl      launch fomoscript REPL\n",
    "    - help      You are here\n",
    "    "].flatMap String.toList

/-- A command of the shell. -/
def command (text : List Char) (t : Terminal C) : Turn C :=
  match String.ofList text with
  | ">repl" => .breakNewInputs
      ({ t with
        mode := .fomoscriptREPL
        scriptCtx := fos.setVarAbsolute "quit" fos.quit t.scriptCtx
      }.say "Call quit() to exit the REPL".toList).openPrompt
  | ">pid" => .breakNewInputs (t.say ("pid: ".toList ++ decimal pid)).openPrompt
  | ">time" => .breakNewInputs
      (t.say ("time: ".toList ++ decimal startTime ++ " ms".toList)).openPrompt
  | ">lang en" => .breakNewInputs ({ t with loc := .en }.say "ok".toList).openPrompt
  | ">lang fr" => .breakNewInputs ({ t with loc := .fr }.say "ok".toList).openPrompt
  | ">reset" => .reset
  | ">help" => .breakNewInputs (t.say helpText).openPrompt
  | _ =>
    if ">eval ".toList.isPrefixOf text then
      match evalScript fos startTime pid text t with
      | some t => .breakNewInputs t.openPrompt
      | none => .panic
    else .breakNewInputs (t.say "unknown command".toList).openPrompt

/-- Enter, on an atom of this text. -/
def enter (text : List Char) (t : Terminal C) : Turn C :=
  match t.mode with
  | .fomoscriptREPL =>
    match evalLine fos text t with
    | some t => .breakNewInputs t.openPrompt
    | none => .panic
  | .shell => command fos startTime pid text t

/-- The modifier keys, whether pressed or released. -/
def modifiers (e : InputEvent) (t : Terminal C) : Terminal C :=
  match e.key with
  | .keyLeftShift => { t with shift := e.trigger }
  | .keyRightAlt => { t with altg := e.trigger }
  | _ => t

/-- What a press that is not an Enter to execute makes of the text of the last atom. -/
def edit (key : Key) (t : Terminal C) (text : List Char) : List Char :=
  let text := if key = .keyBackspace ∧ 1 < String.utf8Len text then text.dropLast else text
  match key.char t.loc t.shift t.altg with
  | some c => text ++ [c]
  | none => if key = .keyEnter ∧ t.shift then text ++ ['\n'] else text

/-- A press. -/
def press (key : Key) (t : Terminal C) : Turn C :=
  match t.consoleHistory with
  | ⟨true, text⟩ :: older =>
    if key = .keyEnter ∧ !t.shift then enter fos startTime pid text t
    else .next { t with consoleHistory := ⟨true, edit key t text⟩ :: older }
  | _ => .next t

/-- One turn of `'new_inputs`. -/
def newInput (e : InputEvent) (t : Terminal C) : Turn C :=
  if e.trigger then press fos startTime pid e.key (modifiers e t) else .next (modifiers e t)

/-- `'new_inputs` -/
def newInputs : List InputEvent → Terminal C → Turn C
  | [], t => .next t
  | e :: es, t =>
    match newInput fos startTime pid e t with
    | .next t => newInputs es t
    | done => done

/-- Whether `get_raster` has what the drawing of the text asks it for. -/
def textDrawable (font : Font) (text : List Char) : Bool :=
  text.all fun c => c = '\n' || font.hasRaster c

def drawable (font : Font) (t : Terminal C) : Bool :=
  t.consoleHistory.all fun a => textDrawable font a.text

end Terminal

/-- The events at the positions `(c + 1)..=history_last_index` of the ring. -/
def Input.since (c : ℕ) (input : Input) : List InputEvent :=
  let start := (c + 1) % 2 ^ 64
  (List.range' start (input.historyLastIndex + 1 - start)).map fun i =>
    input.historyRing (i % historySize)

namespace Store
variable {C N E : Type} (fos : Fomoscript C N E) (font : Font) (cx : Context)

def new : Store C where
  step := 0
  inputHistoryLastIndex := cx.input.historyLastIndex
  active := false
  terminal := ⟨[], .en, false, false, fos.new, .shell⟩

/-- The first call welcomes the user. -/
def welcome (s : Store C) : Store C :=
  if s.step = 0 then
    { s with terminal :=
      (s.terminal.say "Welcome to Fomos !".toList).push ⟨true, ['>']⟩ }
  else s

/-- The store when a call comes to draw its title. -/
def opened (store : Option (Store C)) : Store C :=
  let s := (store.getD (new fos cx)).welcome
  { s with step := s.step + 1, active := cx.click.getD s.active }

def title : List Char := "app_console [".toList ++ decimal cx.pid ++ "]".toList

/-- The store when a call returns that has not dropped it. -/
def closed (t : Terminal C) (s : Store C) : Store C :=
  { s with inputHistoryLastIndex := cx.input.historyLastIndex, terminal := t }

/-- What the loop over the new events is run on. -/
def newEvents (s : Store C) : List InputEvent :=
  if s.active then cx.input.since s.inputHistoryLastIndex else []

/-- The drawing of the title and the history finds its characters. -/
def canDraw (s : Store C) : Bool := (title cx).all font.hasRaster && s.terminal.drawable font

/-- What `ctx.store` holds when the loop is over: none for a panic. -/
def leave (s : Store C) : Turn C → Option (Option (Store C))
  | .next t => some (some (s.closed cx t))
  | .breakNewInputs t => some (some (s.closed cx t))
  | .reset => some none
  | .panic => none

/-- `_start` -/
def start (store : Option (Store C)) : Option (Option (Store C)) :=
  let s := opened fos cx store
  if s.canDraw font cx then
    s.leave cx (Terminal.newInputs fos cx.startTime cx.pid (newEvents cx s) s.terminal)
  else none

end Store
end Console
end Fomos

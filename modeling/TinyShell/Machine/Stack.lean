import TinyShell.Machine.Memory

/-!
# A stack machine

The i386 registers and instructions that a switch of stacks is made of, over byte
memory. `WordsAt m a l`: the words `l` are in memory from address `a` on. A list of
pushes leaves its words in reverse (`foldl_descend`, `pushAll_eq`, `wordsAt_storeWords`)
and touches nothing else (`storeWords_of_not_mem`).
-/

namespace Machine

/-- `*--stack = w`. -/
def descend (s : U32 × Memory) (w : U32) : U32 × Memory := (s.1 - 4, store32 s.2 (s.1 - 4).toNat w)

inductive Reg
  | eax
  | ebx
  | esi
  | edi
  | ebp
  | esp
  deriving DecidableEq

structure Cpu where
  eax : U32
  ebx : U32
  esi : U32
  edi : U32
  ebp : U32
  esp : U32
  eflags : U32
  eip : U32
  mem : Memory

namespace Cpu

def get (c : Cpu) : Reg → U32
  | .eax => c.eax
  | .ebx => c.ebx
  | .esi => c.esi
  | .edi => c.edi
  | .ebp => c.ebp
  | .esp => c.esp

def set (c : Cpu) (v : U32) : Reg → Cpu
  | .eax => { c with eax := v }
  | .ebx => { c with ebx := v }
  | .esi => { c with esi := v }
  | .edi => { c with edi := v }
  | .ebp => { c with ebp := v }
  | .esp => { c with esp := v }

def push (c : Cpu) (v : U32) : Cpu :=
  let (esp, mem) := descend (c.esp, c.mem) v
  { c with esp := esp, mem := mem }

/-- The word on top of the stack. -/
def top (c : Cpu) : U32 := load32 c.mem c.esp.toNat

/-- `addl $4 * n, %esp`. -/
def drop (c : Cpu) (n : ℕ) : Cpu := { c with esp := c.esp + word (4 * n) }

/-- Pushes of words in order. -/
def pushAll (c : Cpu) (ws : List U32) : Cpu := ws.foldl push c

end Cpu

inductive Instr
  /-- `movl offset(base), dst`. -/
  | load (offset : U32) (base dst : Reg)
  /-- `movl src, (base)`. -/
  | store (src base : Reg)
  | push (r : Reg)
  | pop (r : Reg)
  | popf
  | ret
  /-- `addl $4 * n, %esp`. -/
  | drop (n : ℕ)

def Instr.exec (c : Cpu) : Instr → Cpu
  | .load offset base dst => c.set (load32 c.mem (c.get base + offset).toNat) dst
  | .store src base => { c with mem := store32 c.mem (c.get base).toNat (c.get src) }
  | .push r => c.push (c.get r)
  | .pop r => (c.drop 1).set c.top r
  | .popf => { c.drop 1 with eflags := c.top }
  | .ret => { c.drop 1 with eip := c.top }
  | .drop n => c.drop n

/-- A straight piece of code. -/
def Cpu.execAll (c : Cpu) (code : List Instr) : Cpu := code.foldl Instr.exec c

/-! ## Words in memory -/

/-- The words are in memory, one after the other. -/
def WordsAt (m : Memory) : ℕ → List U32 → Prop
  | _, [] => True
  | a, w :: l => load32 m a = w ∧ WordsAt m (a + 4) l

def storeWords (m : Memory) : ℕ → List U32 → Memory
  | _, [] => m
  | a, w :: l => store32 (storeWords m (a + 4) l) a w

variable {m m' : Memory} {a : ℕ} {l l' ws : List U32} {c : Cpu}

theorem wordsAt_append : WordsAt m a (l ++ l') ↔ WordsAt m a l ∧ WordsAt m (a + 4 * l.length) l' := by
  induction l generalizing a with
  | nil => simp [WordsAt]
  | cons w l ih =>
    rw [List.cons_append, WordsAt, WordsAt, ih, and_assoc, List.length_cons,
      show a + 4 + 4 * l.length = a + 4 * (l.length + 1) by omega]

theorem WordsAt.frame (h : WordsAt m a l) (hm : ∀ x, a ≤ x → x < a + 4 * l.length → m' x = m x) :
    WordsAt m' a l := by
  induction l generalizing a with
  | nil => trivial
  | cons w l ih =>
    rw [List.length_cons] at hm
    refine ⟨?_, ih h.2 fun x h1 h2 => hm x (by omega) (by omega)⟩
    rw [load32_congr fun i hi => hm (a + i) (by omega) (by omega)]
    exact h.1

theorem storeWords_append (m : Memory) (a : ℕ) (l l' : List U32) :
    storeWords m a (l ++ l') = storeWords (storeWords m (a + 4 * l.length) l') a l := by
  induction l generalizing a with
  | nil => rfl
  | cons w l ih =>
    rw [List.cons_append, storeWords, storeWords, ih, List.length_cons,
      show a + 4 + 4 * l.length = a + 4 * (l.length + 1) by omega]

theorem storeWords_of_not_mem {x : ℕ} (h : ¬(a ≤ x ∧ x < a + 4 * l.length)) : storeWords m a l x = m x := by
  induction l generalizing a with
  | nil => rfl
  | cons w l ih =>
    rw [List.length_cons] at h
    rw [storeWords, store32_of_not_mem (by omega), ih (by omega)]

theorem wordsAt_storeWords (m : Memory) (a : ℕ) (l : List U32) : WordsAt (storeWords m a l) a l := by
  induction l generalizing a with
  | nil => trivial
  | cons w l ih =>
    refine ⟨load32_store32 _ _ _, (ih (a + 4)).frame fun x h1 _ => store32_of_not_mem (by omega)⟩

/-- Words written downwards end up in reverse. -/
theorem foldl_descend {sp : U32} (h : 4 * ws.length ≤ sp.toNat) :
    ws.foldl descend (sp, m) =
      (word (sp.toNat - 4 * ws.length), storeWords m (sp.toNat - 4 * ws.length) ws.reverse) := by
  induction ws using List.reverseRecOn with
  | nil => simp [storeWords]
  | append_singleton ws w ih =>
    rw [List.length_append, List.length_singleton] at h ⊢
    have hlt := sp.isLt
    have hsp : word (sp.toNat - 4 * ws.length) - 4 = word (sp.toNat - 4 * (ws.length + 1)) := by bv_omega
    have hnat : (word (sp.toNat - 4 * (ws.length + 1))).toNat = sp.toNat - 4 * (ws.length + 1) :=
      toNat_word (by omega)
    have hnext : sp.toNat - 4 * (ws.length + 1) + 4 = sp.toNat - 4 * ws.length := by omega
    rw [List.foldl_append, ih (by omega), List.foldl_cons, List.foldl_nil, descend, hsp, hnat,
      List.reverse_append, List.reverse_singleton, List.singleton_append, storeWords, hnext]

theorem pushAll_foldl (c : Cpu) (ws : List U32) :
    c.pushAll ws =
      { c with esp := (ws.foldl descend (c.esp, c.mem)).1, mem := (ws.foldl descend (c.esp, c.mem)).2 } := by
  induction ws generalizing c with
  | nil => rfl
  | cons w ws ih =>
    rw [Cpu.pushAll, List.foldl_cons, List.foldl_cons]
    exact ih (c.push w)

/-- **Pushes** that stay inside the address space. -/
theorem pushAll_eq (h : 4 * ws.length ≤ c.esp.toNat) :
    c.pushAll ws = { c with
      esp := word (c.esp.toNat - 4 * ws.length)
      mem := storeWords c.mem (c.esp.toNat - 4 * ws.length) ws.reverse } := by
  rw [pushAll_foldl, foldl_descend h]

theorem execAll_append (c : Cpu) (code code' : List Instr) :
    c.execAll (code ++ code') = (c.execAll code).execAll code' :=
  List.foldl_append

end Machine

import AxiomeToolchain.Library.CInt

/-!
# The system call layer

sdk/src/syscall.c with the numbers of sdk/include/syscall_numbers.h, and the
calls of sdk/src/signal.c and sdk/src/time.c but for sleep and usleep. Every
function loads a number and up to six arguments into registers and converts what
the kernel leaves in rax. `long`, `size_t` and pointers are 64 bits; an `int`
argument is sign-extended, an `unsigned int` or `uint32_t` one zero-extended. Two
functions do more: sigaction hands over a copy of its own, and nanosleep does not
get to the kernel without a time.
-/

set_option autoImplicit false

namespace AxiomeToolchain.Source.Syscall
open AxiomeToolchain.Library.CInt

abbrev Long := BitVec 64
abbrev CInt := BitVec 32
abbrev UInt := BitVec 32

/-- `(long)v` for an `int`. -/
def ofInt (v : CInt) : Long := v.signExtend 64

/-- `(long)v` for an `unsigned int`. -/
def ofUInt (v : UInt) : Long := v.setWidth 64

/-- The registers the inline assembly of `syscall` loads. -/
structure Registers where
  rax : Long
  rdi : Long
  rsi : Long
  rdx : Long
  r10 : Long
  r8 : Long
  r9 : Long
  deriving DecidableEq

/-- `syscall(n, a1, ..., a6)` with the arguments a caller gives; the others are 0. -/
def trap (n : Nat) (args : List Long) : Registers :=
  ⟨BitVec.ofNat 64 n, args.getD 0 0, args.getD 1 0, args.getD 2 0, args.getD 3 0, args.getD 4 0,
    args.getD 5 0⟩

/-- The result and errno, from the errno before and what the kernel left in rax. -/
def syscall (errno raw : Int) : Int × Int :=
  if raw < 0 ∧ raw ≥ -4095 then (-1, wrapInt (-raw)) else (raw, errno)

/-- `struct sigaction` -/
structure Sigaction where
  handler : Long
  flags : Long
  restorer : Long
  mask : Long
  deriving DecidableEq

/-- The object that `act` points to, and the place of `local` in the frame. -/
structure Local where
  act : Sigaction
  place : Long
  placed : place ≠ 0
  deriving DecidableEq

/-- The functions that make one system call, with their C arguments. `openPath`
is open(2); `exitStatus` stands for sys_exit, exit and, with 134, abort. For
sigaction `none` is an `act` of NULL. -/
inductive SystemCall where
  | openPath (path : Long) (flags : CInt)
  | close (fd : CInt)
  | write (fd : CInt) (buf len : Long)
  | read (fd : CInt) (buf len : Long)
  | mkdir (path : Long)
  | unlink (path : Long)
  | rmdir (path : Long)
  | readdir (path ents : Long) (max : CInt)
  | chdir (path : Long)
  | getcwd (buf size : Long)
  | fstat (fd : CInt) (st : Long)
  | stat (path st : Long)
  | dup2 (oldfd newfd : CInt)
  | pipe (fds : Long)
  | mount (fstype : CInt) (mountpoint : Long) (dev : CInt)
  | umount (mountpoint : Long)
  | mkfifo (path : Long)
  | driverRescan
  | sysGetpid
  | sysYield
  | sysFork
  | sysSpawnCmd (cmdline len : Long)
  | execve (path argv envp : Long)
  | sysWaitpid (pid : CInt) (status : Long)
  | sysWaitpidNb (pid : CInt) (status : Long)
  | sysPs (buf : Long) (max : CInt)
  | exitStatus (code : CInt)
  | sysReboot
  | sysPoweroff
  | sysGetpwnam (name uid gid : Long)
  | sysReloadUsers
  | ipcCreate
  | ipcSend (chan : CInt) (buf len : Long)
  | ipcRecv (chan : CInt) (buf max : Long)
  | shmCreate (bytes : Long)
  | shmAttach (id : Long)
  | sockCreate (domain type proto : CInt)
  | sockBind (fd : CInt) (addr : Long) (addrlen : CInt)
  | sockConnect (fd : CInt) (addr : Long) (addrlen : CInt)
  | sockListen (fd : CInt)
  | sockAccept (fd : CInt)
  | sockSend (fd : CInt) (buf len : Long)
  | sockRecv (fd : CInt) (buf max : Long)
  | sockClose (fd : CInt)
  | dnsResolve (name ipOut : Long)
  | ping (dst timeoutMs : UInt) (rttUs : Long)
  | getuid
  | geteuid
  | getgid
  | getegid
  | getrole
  | getcap
  | setuid (uid : UInt)
  | setgid (gid : UInt)
  | chmod (path : Long) (mode : UInt)
  | chown (path : Long) (uid gid : UInt)
  | sysAuthenticate (user pass : Long)
  | fbMmap (fd : CInt) (off virt len : Long)
  | kxtload (path : Long)
  | kxtunload (name : Long)
  | uname (buf : Long)
  | lseek (fd : CInt) (offset : Long) (whence : CInt)
  | pread (fd : CInt) (buf len off : Long)
  | pwrite (fd : CInt) (buf len off : Long)
  | sigaction (signo : CInt) (act : Option Local) (oldact : Long)
  | kill (pid sig : CInt)
  | sigreturn
  | time (tloc : Long)
  | gettimeofday (tv : Long)
  | nanosleep (req rem : Long)
  deriving DecidableEq

/-- The number and the arguments in the body of each function, without its zeros. -/
def SystemCall.entry : SystemCall → Nat × List Long
  | .openPath path flags => (11, [path, ofInt flags])
  | .close fd => (12, [ofInt fd])
  | .write fd buf len => (7, [ofInt fd, buf, len])
  | .read fd buf len => (8, [ofInt fd, buf, len])
  | .mkdir path => (13, [path])
  | .unlink path => (14, [path])
  | .rmdir path => (66, [path])
  | .readdir path ents max => (15, [path, ents, ofInt max])
  | .chdir path => (16, [path])
  | .getcwd buf size => (17, [buf, size])
  | .fstat fd st => (18, [ofInt fd, st])
  | .stat path st => (65, [path, st])
  | .dup2 oldfd newfd => (19, [ofInt oldfd, ofInt newfd])
  | .pipe fds => (20, [fds])
  | .mount fstype mountpoint dev => (21, [ofInt fstype, mountpoint, ofInt dev])
  | .umount mountpoint => (22, [mountpoint])
  | .mkfifo path => (31, [path])
  | .driverRescan => (32, [])
  | .sysGetpid => (5, [])
  | .sysYield => (1, [])
  | .sysFork => (3, [])
  | .sysSpawnCmd cmdline len => (9, [cmdline, len])
  | .execve path argv envp => (58, [path, argv, envp])
  | .sysWaitpid pid status => (6, [ofInt pid, status])
  | .sysWaitpidNb pid status => (70, [ofInt pid, status])
  | .sysPs buf max => (10, [buf, ofInt max])
  | .exitStatus code => (2, [ofInt code])
  | .sysReboot => (71, [])
  | .sysPoweroff => (72, [])
  | .sysGetpwnam name uid gid => (52, [name, uid, gid])
  | .sysReloadUsers => (57, [])
  | .ipcCreate => (26, [])
  | .ipcSend chan buf len => (27, [ofInt chan, buf, len])
  | .ipcRecv chan buf max => (28, [ofInt chan, buf, max])
  | .shmCreate bytes => (29, [bytes])
  | .shmAttach id => (30, [id])
  | .sockCreate domain type proto => (33, [ofInt domain, ofInt type, ofInt proto])
  | .sockBind fd addr addrlen => (34, [ofInt fd, addr, ofInt addrlen])
  | .sockConnect fd addr addrlen => (35, [ofInt fd, addr, ofInt addrlen])
  | .sockListen fd => (39, [ofInt fd])
  | .sockAccept fd => (40, [ofInt fd])
  | .sockSend fd buf len => (36, [ofInt fd, buf, len])
  | .sockRecv fd buf max => (37, [ofInt fd, buf, max])
  | .sockClose fd => (38, [ofInt fd])
  | .dnsResolve name ipOut => (68, [name, ipOut])
  | .ping dst timeoutMs rttUs => (69, [ofUInt dst, ofUInt timeoutMs, rttUs])
  | .getuid => (41, [])
  | .geteuid => (42, [])
  | .getgid => (43, [])
  | .getegid => (44, [])
  | .getrole => (47, [])
  | .getcap => (50, [])
  | .setuid uid => (45, [ofUInt uid])
  | .setgid gid => (46, [ofUInt gid])
  | .chmod path mode => (48, [path, ofUInt mode])
  | .chown path uid gid => (49, [path, ofUInt uid, ofUInt gid])
  | .sysAuthenticate user pass => (67, [user, pass])
  | .fbMmap fd off virt len => (55, [ofInt fd, off, virt, len])
  | .kxtload path => (53, [path])
  | .kxtunload name => (54, [name])
  | .uname buf => (56, [buf])
  | .lseek fd offset whence => (62, [ofInt fd, offset, ofInt whence])
  | .pread fd buf len off => (63, [ofInt fd, buf, len, off])
  | .pwrite fd buf len off => (64, [ofInt fd, buf, len, off])
  | .sigaction signo act oldact =>
    (24, [ofInt signo, (act.map Local.place).getD 0, oldact])
  | .kill pid sig => (23, [ofInt pid, ofInt sig])
  | .sigreturn => (25, [])
  | .time tloc => (59, [tloc])
  | .gettimeofday tv => (60, [tv])
  | .nanosleep req rem => (61, [req, rem])

def SystemCall.registers (call : SystemCall) : Registers := trap call.entry.1 call.entry.2

/-- nanosleep with a `req` of NULL returns before it calls `syscall`. -/
def SystemCall.refused : SystemCall → Bool
  | .nanosleep req _ => req = 0
  | _ => false

/-- What is loaded for the kernel, if the kernel is called. -/
def SystemCall.entered (call : SystemCall) : Option Registers :=
  if call.refused then none else some call.registers

def SA_RESTORER : Long := 8

/-- `local` as sigaction leaves it; `trampoline` is `__sigreturn_trampoline`. -/
def Sigaction.restored (trampoline : Long) (act : Sigaction) : Sigaction :=
  { act with restorer := trampoline, flags := act.flags ||| SA_RESTORER }

/-- What lies in memory where sigaction's second argument points. -/
def SystemCall.object (trampoline : Long) : SystemCall → Option Sigaction
  | .sigaction _ act _ => act.map (fun copy => copy.act.restored trampoline)
  | _ => none

/-- The C type of the function. -/
inductive Returns where
  | int | long | uid | word | void
  deriving DecidableEq

def SystemCall.returns : SystemCall → Returns
  | .write .. | .read .. | .driverRescan | .sysGetpid | .sysYield | .sysFork | .sysSpawnCmd ..
  | .sysWaitpid .. | .sysWaitpidNb .. | .ipcSend .. | .ipcRecv .. | .shmCreate .. | .sockSend ..
  | .sockRecv .. | .fbMmap .. | .kxtload .. | .kxtunload .. | .lseek .. | .pread .. | .pwrite ..
  | .time .. => .long
  | .getuid | .geteuid | .getgid | .getegid => .uid
  | .getcap | .shmAttach .. => .word
  | .exitStatus .. | .sysReboot | .sysPoweroff | .sigreturn => .void
  | _ => .int

/-- The cast on the result: `(int)`, none, `(uid_t)`, `(void *)` or nothing returned. -/
def Returns.cast : Returns → Int → Int
  | .int, ret => wrapInt ret
  | .long, ret => ret
  | .uid, ret => ret % 4294967296
  | .word, ret => ret % 18446744073709551616
  | .void, _ => 0

/-- The call as its caller sees it: the value returned, and errno, which is
EFAULT where nothing was called. -/
def SystemCall.perform (call : SystemCall) (errno raw : Int) : Int × Int :=
  if call.refused then (-1, 14)
  else (call.returns.cast (syscall errno raw).1, (syscall errno raw).2)

/-! ## The error range -/

/-- The kernel reported an error. -/
def Failed (raw : Int) : Prop := -4095 ≤ raw ∧ raw < 0

instance (raw : Int) : Decidable (Failed raw) := inferInstanceAs (Decidable (_ ∧ _))

theorem syscall_failed {errno raw : Int} (failed : Failed raw) : syscall errno raw = (-1, -raw) := by
  obtain ⟨low, high⟩ := failed
  rw [syscall, if_pos ⟨high, low⟩, wrapInt_of_range (by omega) (by omega)]

theorem syscall_succeeded {errno raw : Int} (success : ¬ Failed raw) :
    syscall errno raw = (raw, errno) :=
  if_neg (fun both => success ⟨both.2, both.1⟩)

/-- What a function can return for a success: the type holds the kernel's value. -/
def Fits : Returns → Int → Prop
  | .int, raw => -2147483648 ≤ raw ∧ raw ≤ 2147483647
  | .long, raw => -9223372036854775808 ≤ raw ∧ raw ≤ 9223372036854775807
  | .uid, raw => 0 ≤ raw ∧ raw ≤ 4294967295
  | .word, raw => 0 ≤ raw ∧ raw ≤ 18446744073709551615
  | .void, raw => raw = 0

theorem cast_fits {kind : Returns} {raw : Int} (fits : Fits kind raw) : kind.cast raw = raw := by
  cases kind with
  | int => exact wrapInt_of_range fits.1 fits.2
  | long => rfl
  | uid =>
    simp only [Fits, Returns.cast] at fits ⊢
    omega
  | word =>
    simp only [Fits, Returns.cast] at fits ⊢
    omega
  | void => exact (show raw = 0 from fits).symm

/-- What the call comes to: the kernel's answer, or the error of a function that
does not ask. -/
def SystemCall.outcome (call : SystemCall) (raw : Int) : Int := if call.refused then -14 else raw

theorem outcome_called {call : SystemCall} (called : call.refused = false) (raw : Int) :
    call.outcome raw = raw := by
  rw [SystemCall.outcome, called]
  rfl

theorem perform_eq (call : SystemCall) (errno raw : Int) : call.perform errno raw =
    (call.returns.cast (syscall errno (call.outcome raw)).1,
      (syscall errno (call.outcome raw)).2) := by
  rw [SystemCall.perform, SystemCall.outcome]
  cases refused : call.refused with
  | false => rfl
  | true =>
    cases call with
    | nanosleep req rem => rfl
    | _ => cases refused

theorem perform_succeeded (call : SystemCall) {errno raw : Int}
    (success : ¬ Failed (call.outcome raw)) (fits : Fits call.returns (call.outcome raw)) :
    call.perform errno raw = (call.outcome raw, errno) := by
  rw [perform_eq, syscall_succeeded success, cast_fits fits]

theorem perform_failed (call : SystemCall) {errno raw : Int} (failed : Failed (call.outcome raw)) :
    call.perform errno raw = (call.returns.cast (-1), -call.outcome raw) := by
  rw [perform_eq, syscall_failed failed]

end AxiomeToolchain.Source.Syscall

namespace CrateDocs

-- Whether a function is declared `unsafe`.
inductive Unsafety
  | marked
  | normal
deriving DecidableEq, Repr

-- Whether a function is declared `const`.
inductive Constness
  | marked
  | plain
deriving DecidableEq, Repr

-- Whether a function is part of what its package offers to everyone.
inductive Visibility
  | exported
  | internal
deriving DecidableEq, Repr

-- The calling conventions that `extern "..."` can name.
inductive Abi
  | rust
  | c
  | cUnwind
  | system
  | systemUnwind
  | cdecl
  | cdeclUnwind
  | stdcall
  | stdcallUnwind
  | fastcall
  | fastcallUnwind
  | vectorcall
  | vectorcallUnwind
  | thiscall
  | thiscallUnwind
  | aapcs
  | aapcsUnwind
  | win64
  | win64Unwind
  | sysv64
  | sysv64Unwind
  | efiapi
  | ptxKernel
  | msp430Interrupt
  | x86Interrupt
  | rustIntrinsic
  | rustCall
  | platformIntrinsic
  | unadjusted
deriving DecidableEq, Repr

-- How query terms select functions by the last segment of their paths.
inductive MatchPolicy
  | exactThenSubstring
  | exact
  | substring
deriving DecidableEq, Repr

-- A closed set of values, each written as a tag of its own.
class Tagged (α : Type) where
  all : List α
  tag : α → String

export Tagged (tag)

-- The value that a tag stands for.
def ofTag? {α : Type} [Tagged α] (s : String) : Option α :=
  Tagged.all.find? fun value => tag value == s

instance : Tagged Unsafety where
  all := [.marked, .normal]
  tag
    | .marked => "Unsafe"
    | .normal => "Normal"

instance : Tagged Constness where
  all := [.marked, .plain]
  tag
    | .marked => "Const"
    | .plain => "NotConst"

instance : Tagged Visibility where
  all := [.exported, .internal]
  tag
    | .exported => "Public"
    | .internal => "Private"

instance : Tagged Abi where
  all := [.rust, .c, .cUnwind, .system, .systemUnwind, .cdecl, .cdeclUnwind, .stdcall,
    .stdcallUnwind, .fastcall, .fastcallUnwind, .vectorcall, .vectorcallUnwind, .thiscall,
    .thiscallUnwind, .aapcs, .aapcsUnwind, .win64, .win64Unwind, .sysv64, .sysv64Unwind, .efiapi,
    .ptxKernel, .msp430Interrupt, .x86Interrupt, .rustIntrinsic, .rustCall, .platformIntrinsic,
    .unadjusted]
  tag
    | .rust => "Rust"
    | .c => "C"
    | .cUnwind => "C-unwind"
    | .system => "system"
    | .systemUnwind => "system-unwind"
    | .cdecl => "cdecl"
    | .cdeclUnwind => "cdecl-unwind"
    | .stdcall => "stdcall"
    | .stdcallUnwind => "stdcall-unwind"
    | .fastcall => "fastcall"
    | .fastcallUnwind => "fastcall-unwind"
    | .vectorcall => "vectorcall"
    | .vectorcallUnwind => "vectorcall-unwind"
    | .thiscall => "thiscall"
    | .thiscallUnwind => "thiscall-unwind"
    | .aapcs => "aapcs"
    | .aapcsUnwind => "aapcs-unwind"
    | .win64 => "win64"
    | .win64Unwind => "win64-unwind"
    | .sysv64 => "sysv64"
    | .sysv64Unwind => "sysv64-unwind"
    | .efiapi => "efiapi"
    | .ptxKernel => "ptx-kernel"
    | .msp430Interrupt => "msp430-interrupt"
    | .x86Interrupt => "x86-interrupt"
    | .rustIntrinsic => "rust-intrinsic"
    | .rustCall => "rust-call"
    | .platformIntrinsic => "platform-intrinsic"
    | .unadjusted => "unadjusted"

instance : Tagged MatchPolicy where
  all := [.exactThenSubstring, .exact, .substring]
  tag
    | .exactThenSubstring => "exact_then_substring"
    | .exact => "exact"
    | .substring => "substring"

end CrateDocs

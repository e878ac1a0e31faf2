/-!
# `GlibcPorts.Errno`: error numbers

The values of `errno` on this kernel that the modelled code sets or tests.
-/

set_option autoImplicit false

namespace GlibcPorts

/-- A value of `errno`. -/
abbrev Errno := Nat

def EPERM : Errno := 1
def ENOENT : Errno := 2
def ESRCH : Errno := 3
def ENXIO : Errno := 6
def EBADF : Errno := 9
def EDEADLK : Errno := 11
def ENOMEM : Errno := 12
def EACCES : Errno := 13
def ENOTDIR : Errno := 20
def EINVAL : Errno := 22
def ENOTTY : Errno := 25
def ERANGE : Errno := 34
def EAGAIN : Errno := 35
def ENOSYS : Errno := 78

end GlibcPorts

import LuaSnippet.Text.Lines

/-!
# Bundled cases

Cases that hold for the bundled declaration files: what is the same in every dialect, and what is
not.
-/

namespace LuaSnippet.Bundled

def globalCases : String := Text.unlines [
  "# Global functions available on every Lua target.",
  "",
  "- name: assert with message",
  "  input: 'assert(false, \"assert message\");'",
  "  expected: 'assert(false, \"assert message\")'",
  "",
  "- name: getmetatable",
  "  input: |",
  "    const metatable = getmetatable(\x7b\x7d);",
  "    const add = metatable!.__add;",
  "  expected: |",
  "    local metatable = getmetatable(\x7b\x7d)",
  "    local add = metatable.__add",
  "",
  "- name: next with previous index",
  "  input: 'const [nextKey, nextValue] = next(\x7b a: \"b\", c: \"d\" \x7d, \"a\");'",
  "  expected: 'local nextKey, nextValue = next(\x7ba = \"b\", c = \"d\"\x7d, \"a\")'",
  "",
  "- name: pairs",
  "  input: |",
  "    for (const [k, v] of pairs(\x7b foo: \"bar\", baz: \"bur\" \x7d)) \x7b",
  "        print(k, v);",
  "    \x7d",
  "  expected: |",
  "    for k, v in pairs(\x7bfoo = \"bar\", baz = \"bur\"\x7d) do",
  "        print(k, v)",
  "    end",
  "",
  "- name: select destructured",
  "  input: 'const [b, c] = select(2, \"a\", \"b\", \"c\");'",
  "  expected: 'local b, c = select(2, \"a\", \"b\", \"c\")'",
  "",
  "- name: select with hash",
  "  input: 'const count = select(\"#\", \"a\", \"b\", \"c\");'",
  "  expected: 'local count = select(\"#\", \"a\", \"b\", \"c\")'",
  "",
  "- name: select rejects unknown selectors",
  "  input: 'select(true, \"a\");'",
  "  expect_error: \"No overload matches this call.\"",
  "",
  "- name: undefined global",
  "  input: 'foo();'",
  "  expect_error: \"Cannot find name 'foo'.\""]

def dialectCases : String := Text.unlines [
  "# Library surface and lowering that differ between Lua versions.",
  "",
  "- name: unpack spread",
  "  input: 'print(...[1, 2, 3]);'",
  "  expected: 'print(table.unpack(\x7b1, 2, 3\x7d))'",
  "  expected_by_target:",
  "    \"5.1\": 'print(unpack(\x7b1, 2, 3\x7d))'",
  "    \"jit\": 'print(unpack(\x7b1, 2, 3\x7d))'",
  "",
  "- name: global unpack",
  "  input: 'const [a, b] = unpack([1, 2]);'",
  "  expected: 'local a, b = unpack(\x7b1, 2\x7d)'",
  "  targets: [\"5.1\", \"jit\"]",
  "",
  "- name: global unpack is gone",
  "  input: 'const [a, b] = unpack([1, 2]);'",
  "  expect_error: \"Cannot find name 'unpack'.\"",
  "  targets: [\"5.2\", \"5.3\"]",
  "",
  "- name: table.unpack",
  "  input: 'const [a, b] = table.unpack([1, 2]);'",
  "  expected: 'local a, b = table.unpack(\x7b1, 2\x7d)'",
  "  targets: [\"5.2\", \"5.3\"]",
  "",
  "- name: bitwise and",
  "  input: 'const x = 6 & 3;'",
  "  expected: 'local x = 6 & 3'",
  "  expected_by_target:",
  "    \"5.2\": 'local x = bit32.band(6, 3)'",
  "    \"jit\": 'local x = bit.band(6, 3)'",
  "  targets: [\"5.2\", \"5.3\", \"jit\"]",
  "",
  "- name: bitwise on 5.1",
  "  input: 'const x = 6 & 3;'",
  "  expect_error: \"Bitwise operations are not supported for target Lua 5.1.\"",
  "  targets: [\"5.1\"]",
  "",
  "- name: utf8 library",
  "  input: 'const n = utf8.len(\"abc\");'",
  "  expected: 'local n = utf8.len(\"abc\")'",
  "  targets: [\"5.3\"]",
  "",
  "- name: bit32 library",
  "  input: 'const n = bit32.bnot(0);'",
  "  expected: 'local n = bit32.bnot(0)'",
  "  targets: [\"5.2\"]",
  "",
  "- name: jit status",
  "  input: 'const [enabled] = jit.status();'",
  "  expected: 'local enabled = jit.status()'",
  "  targets: [\"jit\"]",
  "",
  "- name: math.log10 only before 5.2",
  "  input: 'const x = math.log10(100);'",
  "  expect_error: \"Property 'log10' does not exist on type 'typeof math'.\"",
  "  targets: [\"5.2\", \"5.3\"]"]

end LuaSnippet.Bundled

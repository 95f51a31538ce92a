import LuaSnippet.Text.Lines

/-!
# Declarations of single dialects

What only some dialects offer, and for each dialect the file that refers to all it has.
-/

namespace LuaSnippet.Bundled

/-- What Lua 5.1 and LuaJIT alone have. -/
def only51 : String := Text.unlines [
  "/** Returns the elements from the given table. */",
  "declare function unpack<T extends any[]>(list: T): LuaMultiReturn<T>;",
  "declare function unpack<T>(list: T[], i: number, j?: number): LuaMultiReturn<T[]>;",
  "",
  "declare function setfenv<T extends Function>(f: T, table: object): T;",
  "",
  "declare function getfenv(f?: Function | number): any;",
  "",
  "declare function loadstring(str: string, chunkname?: string): LuaMultiReturn<[() => any] | [undefined, string]>;",
  "",
  "declare namespace table \x7b",
  "    function maxn(table: object): number;",
  "\x7d",
  "",
  "declare namespace math \x7b",
  "    function log10(x: number): number;",
  "\x7d"]

def only52 : String := Text.unlines [
  "/** Bitwise operations on unsigned 32-bit integers. */",
  "declare namespace bit32 \x7b",
  "    function arshift(x: number, disp: number): number;",
  "    function band(...operands: number[]): number;",
  "    function bnot(x: number): number;",
  "    function bor(...operands: number[]): number;",
  "    function btest(...operands: number[]): boolean;",
  "    function bxor(...operands: number[]): number;",
  "    function extract(n: number, field: number, width?: number): number;",
  "    function lrotate(x: number, disp: number): number;",
  "    function lshift(x: number, disp: number): number;",
  "    function rrotate(x: number, disp: number): number;",
  "    function rshift(x: number, disp: number): number;",
  "\x7d"]

def from52 : String := Text.unlines [
  "/** Returns the length of the object v without invoking the __len metamethod. */",
  "declare function rawlen(v: object | string): number;",
  "",
  "declare namespace table \x7b",
  "    function pack<T extends any[]>(...args: T): T & \x7b n: number \x7d;",
  "    function unpack<T extends any[]>(list: T): LuaMultiReturn<T>;",
  "    function unpack<T>(list: T[], i: number, j?: number): LuaMultiReturn<T[]>;",
  "\x7d"]

def only53 : String := Text.unlines [
  "/** Basic support for UTF-8 encoding. */",
  "declare namespace utf8 \x7b",
  "    const charpattern: string;",
  "    function char(...codepoints: number[]): string;",
  "    function codes(s: string): LuaIterable<LuaMultiReturn<[number, number]>>;",
  "    function codepoint(s: string, i?: number, j?: number): LuaMultiReturn<number[]>;",
  "    function len(s: string, i?: number, j?: number): number;",
  "    function offset(s: string, n?: number, i?: number): number;",
  "\x7d",
  "",
  "declare namespace math \x7b",
  "    const maxinteger: number;",
  "    const mininteger: number;",
  "    function tointeger(x: number): number | undefined;",
  "    function type(x: any): \"integer\" | \"float\" | undefined;",
  "    function ult(m: number, n: number): boolean;",
  "\x7d",
  "",
  "declare namespace table \x7b",
  "    function move<T>(a1: T[], f: number, e: number, t: number, a2?: T[]): T[];",
  "\x7d"]

def onlyJit : String := Text.unlines [
  "/** LuaJIT bit operations module. */",
  "declare namespace bit \x7b",
  "    function tobit(x: number): number;",
  "    function tohex(x: number, n?: number): string;",
  "    function bnot(x: number): number;",
  "    function band(...operands: number[]): number;",
  "    function bor(...operands: number[]): number;",
  "    function bxor(...operands: number[]): number;",
  "    function lshift(x: number, n: number): number;",
  "    function rshift(x: number, n: number): number;",
  "    function arshift(x: number, n: number): number;",
  "    function rol(x: number, n: number): number;",
  "    function ror(x: number, n: number): number;",
  "    function bswap(x: number): number;",
  "\x7d",
  "",
  "declare namespace jit \x7b",
  "    const arch: string;",
  "    const os: \"Windows\" | \"Linux\" | \"OSX\" | \"BSD\" | \"POSIX\" | \"Other\";",
  "    const version: string;",
  "    const version_num: number;",
  "    function flush(): void;",
  "    function off(): void;",
  "    function on(): void;",
  "    function status(): LuaMultiReturn<[boolean, ...string[]]>;",
  "\x7d"]

def all51 : String := Text.unlines [
  "/// <reference path=\"./core/index.d.ts\" />",
  "/// <reference path=\"./special/5.1-only.d.ts\" />"]

def all52 : String := Text.unlines [
  "/// <reference path=\"./core/index.d.ts\" />",
  "/// <reference path=\"./special/5.2-plus.d.ts\" />",
  "/// <reference path=\"./special/5.2-only.d.ts\" />"]

def all53 : String := Text.unlines [
  "/// <reference path=\"./core/index.d.ts\" />",
  "/// <reference path=\"./special/5.2-plus.d.ts\" />",
  "/// <reference path=\"./special/5.3-only.d.ts\" />"]

def allJit : String := Text.unlines [
  "/// <reference path=\"./core/index.d.ts\" />",
  "/// <reference path=\"./special/5.1-only.d.ts\" />",
  "/// <reference path=\"./special/jit-only.d.ts\" />"]

end LuaSnippet.Bundled
